import RpcContract.Json.Basic

/-!
Fragments are the pieces a specification is put together from: sequences of methods and mappings
from names to schemas. This module holds what can be wrong with one.
-/

namespace RpcContract

namespace Json

def kind : Json → String
  | .obj _ => "mapping"
  | .arr _ => "sequence"
  | .str _ => "string"
  | .num _ => "number"
  | .bool _ => "boolean"
  | .null => "null"

end Json

namespace Fragment

inductive Fault where
  | notMapping
  | notObject (name : String)
  | notMethodSequence (kind : String)
  | notMethodObject (position : Nat) (kind : String)
  | notSchemaMapping (kind : String)
  | notSchemaObject (name kind : String)
  /-- The text of the fragment is no YAML. -/
  | notYaml
  | inFile (path : String) (fault : Fault)
deriving DecidableEq, Repr

def Fault.text : Fault → String
  | .notMapping => "schema fragment is not a mapping"
  | .notObject name => "schema " ++ name ++ " is not an object"
  | .notMethodSequence kind => "methods fragment must be a sequence, got " ++ kind
  | .notMethodObject position kind =>
    "method " ++ toString position ++ " must be an object, got " ++ kind
  | .notSchemaMapping kind => "schemas fragment must be a mapping, got " ++ kind
  | .notSchemaObject name kind => "schema " ++ name ++ " must be an object, got " ++ kind
  | .notYaml => "<yaml error>"
  | .inFile path fault => path ++ ": " ++ fault.text

end Fragment

end RpcContract
