import RpcContract.Schema.Error
import RpcContract.Schema.Repository

/-!
Expanding the references of a schema. A reference is replaced by what it denotes in a repository,
itself expanded; members beside it override those of the schema it denotes.

A whole schema may not be entered again while it is being expanded, and neither may a place inside a
schema by the reference that is being followed to it; what is left to enter is the `Room`, which
shrinks with every reference followed.
-/

namespace RpcContract.Schema

/-- What may still be entered: schemas by name, places inside schemas by reference. -/
structure Room where
  names : List String
  places : List String
deriving Repr

namespace Room

def size (room : Room) : Nat := room.names.length + room.places.length

def withoutName (room : Room) (name : String) : Room :=
  { room with names := room.names.filter (· ≠ name) }

def withoutPlace (room : Room) (text : String) : Room :=
  { room with places := room.places.filter (· ≠ text) }

theorem length_filter_ne_lt {x : String} {xs : List String} (h : x ∈ xs) :
    (xs.filter (· ≠ x)).length < xs.length :=
  List.length_filter_lt_length_iff_exists.mpr ⟨x, h, by simp⟩

theorem size_withoutName {room : Room} {name : String} (h : name ∈ room.names) :
    (room.withoutName name).size < room.size := by
  have := length_filter_ne_lt h
  simp only [size, withoutName]
  omega

theorem size_withoutPlace {room : Room} {text : String} (h : text ∈ room.places) :
    (room.withoutPlace text).size < room.size := by
  have := length_filter_ne_lt h
  simp only [size, withoutPlace]
  omega

def isPlace (text : String) : Bool :=
  match Reference.parse text with
  | .ok reference => reference.pointer.isSome
  | .error _ => false

/-- Every schema of the repository and every place that the schema or the repository refers to. -/
def all (repository : Repository) (schema : Json) : Room :=
  ⟨Dict.keys repository.schemas,
    ((schema.references ++ Json.memberReferences repository.schemas).filter isPlace).eraseDups⟩

end Room

/-- The expanded members that a reference met at a place stands for. -/
abbrev Follow := Json.Path → String → Except Error Json.Members

/-- Adds what the reference of an object stands for to its own members. -/
def withReference (follow : Follow) (path : Json.Path) (members own : Json.Members) :
    Except Error Json.Members :=
  match Dict.get? members Reference.key with
  | none => .ok own
  | some (.str text) => (follow path text).map fun base => Dict.fill own base
  | some value => .error ⟨path, .invalidReference value.compact .notAString⟩

mutual

def expandValue (follow : Follow) (path : Json.Path) : Json → Except Error Json
  | .arr items => (expandItems follow path 0 items).map .arr
  | .obj members =>
    ((expandMembers follow path members).bind (withReference follow path members)).map .obj
  | value => .ok value

def expandItems (follow : Follow) (path : Json.Path) :
    Nat → List Json → Except Error (List Json)
  | _, [] => .ok []
  | i, item :: items => do
    let item ← expandValue follow (path ++ [.index i]) item
    let items ← expandItems follow path (i + 1) items
    return item :: items

def expandMembers (follow : Follow) (path : Json.Path) :
    List (String × Json) → Except Error Json.Members
  | [] => .ok []
  | (key, value) :: members =>
    if key = Reference.key then expandMembers follow path members
    else do
      let value ← expandValue follow (path ++ [.key key]) value
      let members ← expandMembers follow path members
      return (key, value) :: members

end

def expandObject (follow : Follow) (path : Json.Path) (members : Json.Members) :
    Except Error Json.Members :=
  (expandMembers follow path members).bind (withReference follow path members)

/-- Follows a reference: to the object a pointer leads to, or to a whole schema. -/
def follow (repository : Repository) (room : Room) (path : Json.Path) (text : String) :
    Except Error Json.Members :=
  match Reference.parse text with
  | .error fault => .error ⟨path, .invalidReference text fault⟩
  | .ok reference =>
    match repository.get? reference.name with
    | none => .error ⟨path, .schemaNotFound text⟩
    | some schema =>
      match reference.pointer with
      | some pointer =>
        match schema.atPointer? pointer with
        | none => .error ⟨path, .pointerNotFound text pointer⟩
        | some (.obj target) =>
          if text ∈ room.places then
            expandObject (fun place next => follow repository (room.withoutPlace text) place next)
              path target
          else .error ⟨path, .cycle text⟩
        | some _ => .error ⟨path, .invalidReference text (.targetNotObject pointer)⟩
      | none =>
        if reference.name ∈ room.names then
          match schema with
          | .obj target =>
            expandObject
              (fun place next => follow repository (room.withoutName reference.name) place next)
              path target
          | _ => .error ⟨path, .invalidReference text .schemaNotObject⟩
        else .error ⟨path, .cycle text⟩
termination_by room.size
decreasing_by
  · exact Room.size_withoutPlace ‹_›
  · exact Room.size_withoutName ‹_›

/-- A schema with all its references expanded. -/
def dereference (schema : Json) (repository : Repository) : Except Error Json :=
  expandValue (follow repository (Room.all repository schema)) [] schema

end RpcContract.Schema
