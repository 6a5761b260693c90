import RpcContract.Json.Path
import RpcContract.Json.Printer
import RpcContract.Schema.Reference

/-!
What can be wrong with a schema while its references are expanded and its compositions merged.
Every error tells the place in the tree where it was met.
-/

namespace RpcContract.Schema

inductive Fault where
  | invalidReference (text : String) (fault : Reference.Fault)
  | schemaNotFound (text : String)
  | pointerNotFound (text pointer : String)
  | cycle (text : String)
  | unresolvedReference (text : String)
  | invalidComposition (reason : String)
deriving DecidableEq, Repr

structure Error where
  path : Json.Path
  fault : Fault
deriving DecidableEq, Repr

def Fault.text : Fault → String
  | .invalidReference text fault => "$ref " ++ Text.quoted text ++ ": " ++ fault.text
  | .schemaNotFound text => "$ref " ++ Text.quoted text ++ ": schema not found in repository"
  | .pointerNotFound text pointer =>
    "$ref " ++ Text.quoted text ++ ": no value at " ++ Text.quoted pointer
  | .cycle text => "$ref " ++ Text.quoted text ++ ": cycle detected"
  | .unresolvedReference text =>
    "unexpected $ref " ++ Text.quoted text ++ " (dereference input first)"
  | .invalidComposition reason => "invalid allOf: " ++ reason

def Error.message (e : Error) : String := e.path.text ++ ": " ++ e.fault.text

end RpcContract.Schema
