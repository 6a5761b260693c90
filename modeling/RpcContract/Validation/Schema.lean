import RpcContract.Validation.Check
import RpcContract.Validation.Draft

/-!
Schemas that can be used for checking: their identifiers are addresses, they satisfy the schema of
schemas, and their patterns can be read.
-/

namespace RpcContract.Validation

/-- Marks a schema as one of this draft. -/
def withDraft : Json → Json
  | .obj members => .obj (Dict.insert members "$schema" (.str draftAddress))
  | schema => schema

/-- What is wrong with an address, if it is a full one. -/
def addressFault? (reference : String) : Option Text.Url.Fault :=
  match Text.Url.check reference with
  | .ok () => none
  | .error .relative => none
  | .error fault => some fault

def identifierFault? (schema : Json) : Option Text.Url.Fault :=
  let root := match schema.get? idKey with
    | some (.str id) =>
      match Text.Url.check id with
      | .ok () => none
      | .error fault => some fault
    | _ => none
  root.or ((identified schema).findSome? fun p => addressFault? p.1)

def draftDocument : Document := .ofRoot draft

mutual

/-- The first reference or pattern in a schema that cannot be read. -/
def unreadable? : Json → Option String
  | .obj members =>
    match Dict.get? members Reference.key with
    | some (.str reference) => (addressFault? reference).map Text.Url.Fault.text
    | _ => unreadableMember? members
  | .arr items => unreadableItem? items
  | _ => none

def unreadableItem? : List Json → Option String
  | [] => none
  | item :: items => (unreadable? item).or (unreadableItem? items)

def unreadableMember? : List (String × Json) → Option String
  | [] => none
  | (key, value) :: members =>
    let here :=
      match key, value with
      | "patternProperties", .obj patterns =>
        if patterns.all fun p => (Pattern.read? .wide p.1).isSome then none
        else some (Breach.badFormat value "regex").text
      | _, _ => none
    let inside :=
      if key = "enum" ∨ key = "const" ∨ key = "default" ∨ key = "examples" then none
      else unreadable? value
    (here.or inside).or (unreadableMember? members)

end

/-- Why a schema cannot be used, if it cannot. -/
def fault? (schema : Json) : Option String :=
  match identifierFault? schema with
  | some fault => some fault.text
  | none =>
    match violations draftDocument schema with
    | v :: _ => some v.breach.text
    | [] => unreadable? schema

def compile (schema : Json) : Except String Document :=
  match fault? schema with
  | some reason => .error reason
  | none => .ok (.ofRoot schema)

end RpcContract.Validation
