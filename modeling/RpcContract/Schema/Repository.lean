import RpcContract.Fragment
import RpcContract.Json.Pointer

/-!
A repository holds named schemas, which are objects. Of two schemas with one name the later counts.
-/

namespace RpcContract

structure Repository where
  schemas : Dict Json
deriving DecidableEq, Repr

namespace Repository

def empty : Repository := ⟨[]⟩

def get? (r : Repository) (name : String) : Option Json := Dict.get? r.schemas name

def size (r : Repository) : Nat := r.schemas.length

def isEmpty (r : Repository) : Bool := r.schemas.isEmpty

/-- The repository with a schema added, and the schema that it replaced. -/
def insert (r : Repository) (name : String) (schema : Json) :
    Except Fragment.Fault (Repository × Option Json) :=
  if schema.isObject then .ok (⟨Dict.insert r.schemas name schema⟩, r.get? name)
  else .error (.notObject name)

/-- Adds entries up to the first that is no object. -/
def extendMembers (r : Repository) : Json.Members → Repository × Option Fragment.Fault
  | [] => (r, none)
  | (name, schema) :: members =>
    match r.insert name schema with
    | .ok (r, _) => extendMembers r members
    | .error fault => (r, some fault)

/-- Adds the entries of a mapping and counts them. When an entry is no object, those before it
stay. -/
def extend (r : Repository) (fragment : Json) : Repository × Except Fragment.Fault Nat :=
  match fragment with
  | .obj members =>
    match r.extendMembers members with
    | (r, none) => (r, .ok members.length)
    | (r, some fault) => (r, .error fault)
  | _ => (r, .error .notMapping)

def ofFragment (fragment : Json) : Except Fragment.Fault Repository :=
  match empty.extend fragment with
  | (r, .ok _) => .ok r
  | (_, .error fault) => .error fault

/-- The component schemas of a document, none if it has no components. -/
def ofDocument (document : Json) : Except Fragment.Fault Repository :=
  match document.atPointer? "/components/schemas" with
  | some schemas => ofFragment schemas
  | none => .ok empty

end Repository

end RpcContract
