import RpcContract.Error
import RpcContract.OpenRpc.MetaSchema
import RpcContract.Validation.Schema

/-!
Validating whole OpenRPC documents against the schema of such documents, or another schema that
embeds the schema of schemas in the same place.
-/

namespace RpcContract.OpenRpc

/-- An embedded schema of schemas is a plain part of the document around it. -/
def withoutIdentity : Json → Json
  | .obj members => .obj (Dict.erase (Dict.erase members "$id") "$schema")
  | schema => schema

def mapMember (key : String) (f : Json → Json) : Json → Json
  | .obj members =>
    match Dict.get? members key with
    | some value => .obj (Dict.insert members key (f value))
    | none => .obj members
  | value => value

def prepared (schema : Json) : Json :=
  mapMember "definitions" (mapMember "JSONSchema" withoutIdentity) (Validation.withDraft schema)

def compile (schema : Json) : Except Error Validation.Document :=
  (Validation.compile (prepared schema)).mapError (.schemaCompile "OpenRPC meta-schema")

/-- The document schema, ready for use. -/
def schemaOfDocuments : Validation.Document := .ofRoot (prepared documentSchema)

def violations (document : Json) : List String :=
  (Validation.violations schemaOfDocuments document).map (·.text)

end RpcContract.OpenRpc
