import RpcContract.Text.Quoted
import RpcContract.Json.Pointer

/-!
References to component schemas: the text after `#/components/schemas/` names a schema, and what
follows the next slash is a pointer into it.
-/

namespace RpcContract

structure Reference where
  name : String
  /-- Starts with a slash. -/
  pointer : Option String
deriving DecidableEq, Repr

namespace Reference

inductive Fault where
  | notAString
  | unsupportedFormat
  | emptyName
  | schemaNotObject
  | targetNotObject (pointer : String)
deriving DecidableEq, Repr

def Fault.text : Fault → String
  | .notAString => "$ref must be a string"
  | .unsupportedFormat => "unsupported $ref format"
  | .emptyName => "unsupported $ref format: empty schema name"
  | .schemaNotObject => "referenced schema is not an object"
  | .targetNotObject pointer => "value at " ++ Text.quoted pointer ++ " is not an object"

def root : String := "#/components/schemas/"

def parse (text : String) : Except Fault Reference :=
  match root.toList.isPrefixOf? text.toList with
  | none => .error .unsupportedFormat
  | some rest =>
    let name := rest.takeWhile (· ≠ '/')
    let pointer := rest.dropWhile (· ≠ '/')
    if name = [] then .error .emptyName
    else .ok ⟨String.ofList name, if pointer.length ≤ 1 then none else some (String.ofList pointer)⟩

/-- The member of a schema that holds its reference. -/
def key : String := "$ref"

end Reference

namespace Json

mutual

/-- How many objects of a tree hold a reference, whatever its value. -/
def countReferences : Json → Nat
  | .arr items => countItems items
  | .obj members => (if Dict.contains members Reference.key then 1 else 0) + countMembers members
  | _ => 0

def countItems : List Json → Nat
  | [] => 0
  | item :: items => countReferences item + countItems items

def countMembers : List (String × Json) → Nat
  | [] => 0
  | (_, value) :: members => countReferences value + countMembers members

end

mutual

/-- The texts of the references of a tree. -/
def references : Json → List String
  | .arr items => itemReferences items
  | .obj members => memberReferences members
  | _ => []

def itemReferences : List Json → List String
  | [] => []
  | item :: items => references item ++ itemReferences items

def memberReferences : List (String × Json) → List String
  | [] => []
  | (key, value) :: members =>
    (match value with
      | .str text => if key = Reference.key then [text] else []
      | _ => []) ++ references value ++ memberReferences members

end

end Json

end RpcContract
