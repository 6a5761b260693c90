import RpcContract.Method
import RpcContract.OpenRpc.Validate
import RpcContract.Yaml.Value

/-!
Putting an OpenRPC document together from fragments. Methods are kept in the order in which they
were added; of two schemas with one name the later counts. The document holds the schemas as they
were given; in the expanded document every one is resolved.
-/

namespace RpcContract.OpenRpc

/-- What replaces the information about the document that stands in its template. -/
structure Info where
  title : Option String
  version : Option String
  description : Option String
  licenseName : Option String
  licenseUrl : Option String
  openrpc : Option String
deriving DecidableEq, Repr

def Info.none : Info := ⟨.none, .none, .none, .none, .none, .none⟩

inductive Layout where
  | pretty
  | compact
deriving DecidableEq, Repr

def Layout.render : Layout → Json → String
  | .pretty, document => document.pretty
  | .compact, document => document.compact

structure Assembly where
  base : Json.Members
  methods : List Json
  schemas : Dict Json
deriving DecidableEq, Repr

/-- The document without methods and schemas. -/
def template : Json.Members := [
  ("info", .obj [
    ("description", .str
      "A specification of the JSON-RPC interface assembled from modular schema fragments."),
    ("license", .obj [
      ("name", .str "CC0-1.0"),
      ("url", .str "https://creativecommons.org/publicdomain/zero/1.0/legalcode")]),
    ("title", .str "JSON-RPC API Specification"),
    ("version", .str "0.0.0")]),
  ("openrpc", .str "1.2.4")]

/-- The name of a method definition; the empty name where it has none. -/
def nameOf (definition : Json) : String := ((definition.get? "name").bind Json.asString?).getD ""

namespace Assembly

def empty : Assembly := ⟨template, [], []⟩

def setText (members : Json.Members) (key : String) : Option String → Json.Members
  | some text => Dict.insert members key (.str text)
  | none => members

/-- Changes a member that is an object, or makes one of the empty object. -/
def setWithin (members : Json.Members) (key : String) (f : Json.Members → Json.Members) :
    Json.Members :=
  match Dict.get? members key with
  | some (.obj inner) => Dict.insert members key (.obj (f inner))
  | some _ => members
  | none => Dict.insert members key (.obj (f []))

def setLicense (info : Info) (members : Json.Members) : Json.Members :=
  if info.licenseName.isSome || info.licenseUrl.isSome then
    setWithin members "license" fun license =>
      setText (setText license "name" info.licenseName) "url" info.licenseUrl
  else members

def withInfo (a : Assembly) (info : Info) : Assembly :=
  { a with
    base := setWithin (setText a.base "openrpc" info.openrpc) "info" fun members =>
      setLicense info <| setText (setText (setText members "title" info.title)
        "version" info.version) "description" info.description }

/-- The first definition that is no object, with its place. -/
def badMethod? (i : Nat) : List Json → Option (Nat × Json)
  | [] => none
  | d :: ds => if d.isObject then badMethod? (i + 1) ds else some (i, d)

/-- Adds a sequence of method definitions, all or none, and counts them. -/
def addMethods (a : Assembly) (fragment : Json) : Except Fragment.Fault (Assembly × Nat) :=
  match fragment with
  | .arr definitions =>
    match badMethod? 0 definitions with
    | some (i, d) => .error (.notMethodObject i d.kind)
    | none => .ok ({ a with methods := a.methods ++ definitions }, definitions.length)
  | other => .error (.notMethodSequence other.kind)

/-- Adds a mapping of schemas, all or none, and counts them. -/
def addSchemas (a : Assembly) (fragment : Json) : Except Fragment.Fault (Assembly × Nat) :=
  match fragment with
  | .obj members =>
    match members.find? fun m => !m.2.isObject with
    | some (name, schema) => .error (.notSchemaObject name schema.kind)
    | none =>
      .ok ({ a with schemas := members.foldl (fun d m => Dict.insert d m.1 m.2) a.schemas },
        members.length)
  | other => .error (.notSchemaMapping other.kind)

/-- Reads a fragment and adds it. -/
def addText (add : Json → Except Fragment.Fault α) (text : String) : Except Error α :=
  match Json.ofYaml? text with
  | none => .error .yaml
  | some fragment => (add fragment).mapError .invalidFragment

def addMethodsText (a : Assembly) (text : String) : Except Error (Assembly × Nat) :=
  addText a.addMethods text

def addSchemasText (a : Assembly) (text : String) : Except Error (Assembly × Nat) :=
  addText a.addSchemas text

/-- A document of a template's members, methods and schemas. -/
def documentOf (base : Json.Members) (methods : List Json) (schemas : Dict Json) : Json :=
  .obj (Dict.insert (Dict.insert base "methods" (.arr methods))
    "components" (.obj [("schemas", .obj schemas)]))

def document (a : Assembly) : Json := documentOf a.base a.methods a.schemas

def repository (a : Assembly) : Except Error Repository :=
  (Repository.ofFragment (.obj a.schemas)).mapError .invalidFragment

/-- Orders the methods by name; methods with one name keep their order. -/
def sorted (a : Assembly) : Assembly :=
  { a with methods := a.methods.mergeSort fun d e => nameOf d ≤ nameOf e }

def check (document : Json) : Except Error Unit :=
  match violations document with
  | [] => .ok ()
  | vs => .error (.invalidSpec vs document)

/-- Changes a member where there is one. -/
def alter (members : Json.Members) (key : String) (f : Json → Except Error Json) :
    Except Error Json.Members :=
  match Dict.get? members key with
  | some value => do return Dict.insert members key (← f value)
  | none => .ok members

/-- Resolves the schema that a member holds, where it is an object. -/
def resolveIn (repository : Repository) (key : String) (holder : Json) : Except Error Json :=
  match holder with
  | .obj members => do
    let members ← alter members key fun schema =>
      if schema.isObject then Schema.Error.lift (Schema.resolve schema repository)
      else .ok schema
    return .obj members
  | other => .ok other

def eachFrom (i : Nat) (f : Nat → Json → Except Error Json) : List Json → Except Error (List Json)
  | [] => .ok []
  | x :: xs => do
    let y ← f i x
    return y :: (← eachFrom (i + 1) f xs)

def each (f : Nat → Json → Except Error Json) : Json → Except Error Json
  | .arr items => do return .arr (← eachFrom 0 f items)
  | other => .ok other

/-- A method definition with the schemas of its parameters, its result and the data of its errors
resolved. -/
def expandMethod (repository : Repository) (definition : Json) : Except Error Json :=
  match definition with
  | .obj members => do
    let name := nameOf definition
    let members ← alter members "params" <| each fun i param =>
      Error.within name (.param i) (resolveIn repository "schema" param)
    let members ← alter members "result" fun result =>
      Error.within name .result (resolveIn repository "schema" result)
    let members ← alter members "errors" <| each fun i error =>
      Error.within name (.error i) (resolveIn repository "data" error)
    return .obj members
  | other => .ok other

def expandSchemas (repository : Repository) : Dict Json → Except Error (Dict Json)
  | [] => .ok []
  | (name, schema) :: schemas => do
    let resolved ← (Schema.Error.lift (Schema.resolve schema repository)).mapError (.inSchema name)
    return (name, resolved) :: (← expandSchemas repository schemas)

def expandMethods (repository : Repository) : List Json → Except Error (List Json)
  | [] => .ok []
  | d :: ds => do
    let method ← expandMethod repository d
    return method :: (← expandMethods repository ds)

/-- The document with every schema resolved. -/
def expand (a : Assembly) : Except Error Json := do
  let repository ← a.repository
  let schemas ← expandSchemas repository a.schemas
  let methods ← expandMethods repository a.methods
  return documentOf a.base methods schemas

def validate (a : Assembly) : Except Error Unit := check a.document

def validateExpanded (a : Assembly) : Except Error Unit := do check (← a.expand)

/-- The text of the document with its methods in order, if it is valid. -/
def serialize (a : Assembly) (layout : Layout) : Except Error String := do
  let document := a.sorted.document
  check document
  return layout.render document

def serializeExpanded (a : Assembly) (layout : Layout) : Except Error String := do
  let document ← a.sorted.expand
  check document
  return layout.render document

def methodSchemas (a : Assembly) : Except Error Methods := Methods.ofDocument a.document

end Assembly

end RpcContract.OpenRpc
