import RpcContract.Fragment
import RpcContract.Json.Cursor
import RpcContract.Json.Decode
import RpcContract.Schema.Error

/-!
Everything that can go wrong between reading fragments and checking exchanges, its kind and its
wording.
-/

namespace RpcContract

inductive FileFault where
  | notFound
  | notDirectory
  | isDirectory
  | alreadyExists
  | notUtf8
  /-- An input that is neither a file nor a directory. -/
  | noInput
  | walking (path : String) (fault : FileFault)
deriving DecidableEq, Repr

def FileFault.text : FileFault → String
  | .notFound => "No such file or directory (os error 2)"
  | .notDirectory => "Not a directory (os error 20)"
  | .isDirectory => "Is a directory (os error 21)"
  | .alreadyExists => "File exists (os error 17)"
  | .notUtf8 => "stream did not contain valid UTF-8"
  | .noInput => "no such file or directory"
  | .walking path fault => "IO error for operation on " ++ path ++ ": " ++ fault.text

inductive MethodFault where
  | malformed (error : Json.DecodeError)
  | reference (text : String)
  | noName
  | noSchema (name : String)
  | noResult
  | noMethods
deriving DecidableEq, Repr

def MethodFault.text : MethodFault → String
  | .malformed error => error.text
  | .reference text => "content descriptor references are not supported (" ++ text ++ ")"
  | .noName => "content descriptor is missing a name"
  | .noSchema name => "content descriptor " ++ name ++ " is missing a schema"
  | .noResult => "missing result"
  | .noMethods => "document has no methods array"

inductive FixtureFault where
  | openRequest (line : Nat)
  | malformedRequest (error : Json.ReadError)
  | malformedResponse (error : Json.ReadError)
  | noRequest
  | invalidLine (text : String)
  | unhandledRequest
  | noMethod
  | notPositional (params : Json)
  | noAnswer
deriving DecidableEq, Repr

def FixtureFault.text : FixtureFault → String
  | .openRequest line => "request on line " ++ toString line ++ " has no response"
  | .malformedRequest error => "malformed request: " ++ error.message
  | .malformedResponse error => "malformed response: " ++ error.message
  | .noRequest => "response without corresponding request"
  | .invalidLine text => "invalid line: " ++ text
  | .unhandledRequest => "unhandled request"
  | .noMethod => "request has no method"
  | .notPositional params =>
    "unable to parse params: expected an array, got " ++ params.compact
  | .noAnswer => "response has neither result nor error"

/-- A place in a method that holds a schema. -/
inductive Slot where
  | param (position : Nat)
  | result
  | error (position : Nat)
deriving DecidableEq, Repr

def Slot.text : Slot → String
  | .param position => "param " ++ toString position
  | .result => "result"
  | .error position => "error " ++ toString position

inductive Error where
  | schema (error : Schema.Error)
  | undefinedMethod (name : String)
  | inMethod (method : String) (slot : Slot) (error : Error)
  | inSchema (name : String) (error : Error)
  | invalidMethod (fault : MethodFault)
  | tooManyParameters (method fixture : String) (declared supplied : Nat)
  | missingParameter (method fixture : String) (position : Nat) (name : String)
  | validationFailed (target fixture : String) (schema value : Json) (violations : List String)
  | schemaCompile (target reason : String)
  /-- The document that fails is kept for inspection. -/
  | invalidSpec (violations : List String) (document : Json)
  | invalidFragment (fault : Fragment.Fault)
  | invalidFixture (fixture : String) (line : Nat) (fault : FixtureFault)
  | read (path : String) (fault : FileFault)
  | files (fault : FileFault)
  | json (error : Json.ReadError)
  | yaml
  | pattern
deriving DecidableEq, Repr

inductive Error.Kind where
  | format
  | notFound
  | cycle
  | contractViolation
  | validation
  | countMismatch
  | spec
  | input
deriving DecidableEq, Repr

def Schema.Fault.kind : Schema.Fault → Error.Kind
  | .invalidReference .. | .invalidComposition _ => .format
  | .schemaNotFound _ | .pointerNotFound .. => .notFound
  | .cycle _ => .cycle
  | .unresolvedReference _ => .contractViolation

namespace Error

def kind : Error → Kind
  | .schema error => error.fault.kind
  | .undefinedMethod _ => .notFound
  | .inMethod _ _ error | .inSchema _ error => kind error
  | .tooManyParameters .. | .missingParameter .. => .countMismatch
  | .validationFailed .. | .schemaCompile .. => .validation
  | .invalidSpec .. => .spec
  | _ => .input

def message : Error → String
  | .schema error => error.message
  | .undefinedMethod name => "undefined method: " ++ name
  | .inMethod method slot error =>
    "method " ++ method ++ ", " ++ slot.text ++ ": " ++ message error
  | .inSchema name error => "schema " ++ name ++ ": " ++ message error
  | .invalidMethod fault => "invalid method definition: " ++ fault.text
  | .tooManyParameters method fixture declared supplied =>
    "too many parameters for " ++ method ++ " in " ++ fixture ++ ": " ++ toString supplied ++
      " supplied, " ++ toString declared ++ " declared"
  | .missingParameter method fixture position name =>
    "missing required parameter " ++ method ++ ".param[" ++ toString position ++ "] (" ++ name ++
      ") in " ++ fixture
  | .validationFailed target fixture expected value violations =>
    "invalid value for " ++ target ++ " in " ++ fixture ++ ":\n" ++
      "\n".intercalate violations ++ "\nschema:\n" ++ expected.pretty ++
      "\nvalue:\n" ++ value.pretty
  | .schemaCompile target reason => "unable to compile schema for " ++ target ++ ": " ++ reason
  | .invalidSpec violations _ => "spec is invalid: " ++ "\n".intercalate violations
  | .invalidFragment fault => "invalid fragment: " ++ fault.text
  | .invalidFixture fixture line fault =>
    "invalid fixture " ++ fixture ++ " (line " ++ toString line ++ "): " ++ fault.text
  | .read path fault => "failed to read " ++ path ++ ": " ++ fault.text
  | .files fault => "IO error: " ++ fault.text
  | .json error => "JSON error: " ++ error.message
  | .yaml => "YAML error: " ++ Fragment.Fault.notYaml.text
  | .pattern => "Regex error"

/-- What lies behind an error, from the outside in; each text stands in the one before it. -/
def causes : Error → List String
  | .schema error =>
    match error.fault with
    | .invalidReference _ fault => [fault.text]
    | _ => []
  | .inMethod _ _ error | .inSchema _ error => error.message :: causes error
  | .read _ fault => [fault.text]
  | .files fault =>
    match fault with
    | .walking _ inner => [fault.text, inner.text]
    | _ => [fault.text]
  | .json error => [error.message]
  | .yaml => [Fragment.Fault.notYaml.text]
  | _ => []

/-- The message with all causes after it. -/
def report (e : Error) : String := ": ".intercalate (e.message :: e.causes)

/-- Names the file of a fragment that is at fault. -/
def inFile (path : String) : Error → Error
  | .invalidFragment fault => .invalidFragment (.inFile path fault)
  | .yaml => .invalidFragment (.inFile path .notYaml)
  | error => error

end Error

end RpcContract
