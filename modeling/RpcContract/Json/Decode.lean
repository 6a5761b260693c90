import RpcContract.Json.Printer
import RpcContract.Text.Quoted

/-!
Taking typed data out of JSON values. A record is an object, or else the list of its fields in
their order; members that are no fields are passed over.
-/

namespace RpcContract.Json

inductive DecodeError where
  | wrongType (found expected : String)
  | missingField (name : String)
  | wrongLength (length : Nat) (expected : String)
  | notSingleKey
  | unknownVariant (name : String) (expected : List String)
deriving DecidableEq, Repr

def DecodeError.text : DecodeError → String
  | .wrongType found expected => "invalid type: " ++ found ++ ", expected " ++ expected
  | .missingField name => "missing field `" ++ name ++ "`"
  | .wrongLength length expected =>
    "invalid length " ++ toString length ++ ", expected " ++ expected
  | .notSingleKey => "invalid value: map, expected map with a single key"
  | .unknownVariant name expected =>
    "unknown variant `" ++ name ++ "`, expected " ++
      " or ".intercalate (expected.map fun v => "`" ++ v ++ "`")

abbrev Decoded (α : Type) := Except DecodeError α

/-- What a value is, in words. -/
def described : Json → String
  | .null => "null"
  | .bool b => "boolean `" ++ (if b then "true" else "false") ++ "`"
  | .num (.int n) => "integer `" ++ toString n ++ "`"
  | .num x => "floating point `" ++ numberText x ++ "`"
  | .str s => "string " ++ Text.quoted s
  | .arr _ => "sequence"
  | .obj _ => "map"

def refuse (value : Json) (expected : String) : Decoded α :=
  .error (.wrongType value.described expected)

def decodeString : Json → Decoded String
  | .str s => .ok s
  | value => value.refuse "a string"

def decodeBool : Json → Decoded Bool
  | .bool b => .ok b
  | value => value.refuse "a boolean"

/-- A null stands for nothing. -/
def decodeOption (decode : Json → Decoded α) : Json → Decoded (Option α)
  | .null => .ok none
  | value => (decode value).map some

def decodeList (decode : Json → Decoded α) : Json → Decoded (List α)
  | .arr items => items.mapM decode
  | value => value.refuse "a sequence"

/-- The fields of a record. Those in `required` have to be members of an object; those in `listed`
have to be reached by a list. -/
structure Form where
  name : String
  fields : List String
  required : List String
  listed : List String

namespace Form

/-- The fields that a value gives, in the order in which they are looked at. -/
def entries (form : Form) : Json → Decoded (List (String × Json))
  | .obj members => .ok (members.filter fun m => form.fields.contains m.1)
  | .arr items => .ok (form.fields.zip items)
  | value => value.refuse ("struct " ++ form.name)

def elements (form : Form) : String :=
  "struct " ++ form.name ++ " with " ++ toString form.fields.length ++
    (if form.fields.length = 1 then " element" else " elements")

/-- Whether nothing is missing and a list is not too long. -/
def complete (form : Form) : Json → Decoded Unit
  | .obj members =>
    match form.required.find? fun field => !(Dict.contains members field) with
    | some field => .error (.missingField field)
    | none => .ok ()
  | .arr items =>
    match (form.fields.drop items.length).find? form.listed.contains with
    | some field => .error (.wrongLength (form.fields.idxOf field) form.elements)
    | none =>
      if form.fields.length < items.length then
        .error (.wrongLength items.length "fewer elements in array")
      else .ok ()
  | _ => .ok ()

/-- Reads a record field by field into an initial value. -/
def decode (form : Form) (initial : α) (field : α → String → Json → Decoded α) (value : Json) :
    Decoded α := do
  let entries ← form.entries value
  let result ← entries.foldlM (fun a e => field a e.1 e.2) initial
  form.complete value
  return result

end Form

end RpcContract.Json
