import RpcContract.Json.Pointer
import RpcContract.Text.Percent

/-!
Finding the schema that a reference inside a schema document denotes: the document itself, a place
in it given by a pointer, or a part of it that declares an identifier of its own.
-/

namespace RpcContract.Validation

def idKey : String := "$id"

mutual

/-- The parts of a document that declare an identifier. Constants are no parts. -/
def identified : Json → List (String × Json)
  | .obj members =>
    (match Dict.get? members idKey with
      | some (.str id) => [(id, Json.obj members)]
      | _ => []) ++ identifiedMembers members
  | .arr items => identifiedItems items
  | _ => []

def identifiedItems : List Json → List (String × Json)
  | [] => []
  | item :: items => identified item ++ identifiedItems items

def identifiedMembers : List (String × Json) → List (String × Json)
  | [] => []
  | (key, value) :: members =>
    (if key = "enum" ∨ key = "const" then [] else identified value) ++ identifiedMembers members

end

/-- A schema document as its references see it. -/
structure Document where
  root : Json
  identified : List (String × Json)

namespace Document

def ofRoot (root : Json) : Document := ⟨root, Validation.identified root⟩

/-- The address of the document, its identifier without a fragment. -/
def address (d : Document) : String :=
  match d.root.get? idKey with
  | some (.str id) => String.ofList (id.toList.takeWhile (· ≠ '#'))
  | _ => "json-schema:///"

/-- The text before the first `#`, and what follows it. -/
def splitFragment (reference : String) : String × List Char :=
  let cs := reference.toList
  (String.ofList (cs.takeWhile (· ≠ '#')), (cs.dropWhile (· ≠ '#')).drop 1)

/-- The part of the document with an address, given relative to it. -/
def part? (d : Document) (address : String) : Option Json :=
  if address = "" ∨ address = d.address then some d.root
  else
    (d.identified.find? fun p => (splitFragment p.1).1 = address ∧ (splitFragment p.1).2 = []).map
      (·.2)

def find? (d : Document) (reference : String) : Option Json :=
  match d.identified.find? fun p => p.1 = reference ∧ (splitFragment p.1).2 ≠ [] with
  | some (_, part) => some part
  | none =>
    let (address, fragment) := splitFragment reference
    (d.part? address).bind fun part =>
      part.atPointer? (String.ofList (Text.percentDecoded fragment))

/-- The full form of a reference. -/
def fullReference (d : Document) (reference : String) : String :=
  if reference.startsWith "#" then d.address ++ reference else reference

end Document

end RpcContract.Validation
