import RpcContract.Error
import RpcContract.Json.Decode
import RpcContract.Schema.Resolve

/-!
Methods with their schemas resolved. A method has parameters in order and a result, each a
descriptor with a name and a schema.
-/

namespace RpcContract

structure Descriptor where
  name : String
  required : Bool
  schema : Json
deriving DecidableEq, Repr

structure Method where
  name : String
  params : List Descriptor
  result : Descriptor
deriving DecidableEq, Repr

/-- Methods by name. -/
abbrev Methods := Dict Method

/-- Turns an error of a schema into one of the method it stands in. -/
def Schema.Error.lift (result : Except Schema.Error α) : Except RpcContract.Error α :=
  result.mapError .schema

/-- Names the place of a method at which a result failed. -/
def Error.within (method : String) (slot : Slot) (result : Except Error α) : Except Error α :=
  result.mapError (.inMethod method slot)

/-- A descriptor as it is written down, with its schema still unresolved. -/
structure RawDescriptor where
  reference : Option String
  name : Option String
  required : Bool
  schema : Option Json
deriving DecidableEq, Repr

namespace RawDescriptor

def form : Json.Form where
  name := "RawContentDescriptor"
  fields := ["$ref", "name", "required", "schema"]
  required := []
  listed := ["$ref", "name", "schema"]

def setField (d : RawDescriptor) (field : String) (value : Json) : Json.Decoded RawDescriptor :=
  if field = "$ref" then do
    return { d with reference := ← Json.decodeOption Json.decodeString value }
  else if field = "name" then do
    return { d with name := ← Json.decodeOption Json.decodeString value }
  else if field = "required" then do
    return { d with required := ← Json.decodeBool value }
  else .ok { d with schema := if value = .null then none else some value }

def decode (value : Json) : Json.Decoded RawDescriptor :=
  form.decode ⟨none, none, false, none⟩ setField value

def resolve (d : RawDescriptor) (repository : Repository) : Except Error Descriptor := do
  if let some reference := d.reference then
    .error (.invalidMethod (.reference reference))
  else
    match d.name with
    | none => .error (.invalidMethod .noName)
    | some name =>
      match d.schema with
      | none => .error (.invalidMethod (.noSchema name))
      | some schema => do
        let schema ← Schema.Error.lift (Schema.resolve schema repository)
        return ⟨name, d.required, schema⟩

end RawDescriptor

structure RawMethod where
  name : String
  params : List RawDescriptor
  result : Option RawDescriptor
deriving DecidableEq, Repr

namespace RawMethod

def form : Json.Form where
  name := "RawMethod"
  fields := ["name", "params", "result"]
  required := ["name"]
  listed := ["name", "result"]

def setField (m : RawMethod) (field : String) (value : Json) : Json.Decoded RawMethod :=
  if field = "name" then do
    return { m with name := ← Json.decodeString value }
  else if field = "params" then do
    return { m with params := ← Json.decodeList RawDescriptor.decode value }
  else do
    return { m with result := ← Json.decodeOption RawDescriptor.decode value }

def decode (value : Json) : Json.Decoded RawMethod :=
  form.decode ⟨"", [], none⟩ setField value

end RawMethod

namespace Method

def resolveParams (repository : Repository) (method : String) :
    Nat → List RawDescriptor → Except Error (List Descriptor)
  | _, [] => .ok []
  | i, d :: ds => do
    let param ← Error.within method (.param i) (d.resolve repository)
    let params ← resolveParams repository method (i + 1) ds
    return param :: params

def resolveResult (repository : Repository) (method : String) (d : Option RawDescriptor) :
    Except Error Descriptor :=
  Error.within method .result <|
    match d with
    | none => .error (.invalidMethod .noResult)
    | some d => d.resolve repository

def ofDefinition (definition : Json) (repository : Repository) : Except Error Method := do
  let raw ← (RawMethod.decode definition).mapError fun e => .invalidMethod (.malformed e)
  let params ← resolveParams repository raw.name 0 raw.params
  let result ← resolveResult repository raw.name raw.result
  return ⟨raw.name, params, result⟩

/-- How many parameters a call must supply. -/
def requiredParams (m : Method) : Nat := m.params.countP (·.required)

end Method

namespace Methods

def ofDefinitions (repository : Repository) (methods : Methods) :
    List Json → Except Error Methods
  | [] => .ok methods
  | definition :: definitions => do
    let method ← Method.ofDefinition definition repository
    ofDefinitions repository (Dict.insert methods method.name method) definitions

/-- The methods of a document; of two with one name the later counts. -/
def ofDocument (document : Json) : Except Error Methods := do
  let repository ← (Repository.ofDocument document).mapError .invalidFragment
  match document.get? "methods" with
  | some (.arr definitions) => ofDefinitions repository [] definitions
  | _ => .error (.invalidMethod .noMethods)

end Methods

end RpcContract
