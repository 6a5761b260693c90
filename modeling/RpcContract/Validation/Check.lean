import RpcContract.Json.Reader
import RpcContract.Schema.Reference
import RpcContract.Text.Base64
import RpcContract.Text.Utf8
import RpcContract.Validation.Breach
import RpcContract.Validation.Format
import RpcContract.Validation.Locate

/-!
Checking values against schemas, draft 7 of JSON Schema. The keywords of a schema are looked at in
the order of their names, and each contributes its violations; beside a reference no other keyword
counts.
-/

namespace RpcContract.Validation

/-- Checks a value at a place against a schema. -/
abbrev Checker := Json → Json → Json.Path → List Violation

def breach (path : Json.Path) (b : Breach) : List Violation := [⟨path, b⟩]

def Checker.accepts (check : Checker) (schema value : Json) : Bool :=
  (check schema value []).isEmpty

def hasType (value : Json) (type : String) : Bool :=
  match type, value with
  | "null", .null => true
  | "boolean", .bool _ => true
  | "string", .str _ => true
  | "array", .arr _ => true
  | "object", .obj _ => true
  | "number", .num _ => true
  | "integer", .num n => n.isWhole
  | _, _ => false

/-- The greatest count that a limit can ask for. -/
def maxCount : Nat := 18446744073709551615

/-- A count given as a whole number. -/
def countOf? : Json → Option Nat
  | .num (.int n) => some n.toNat
  | .num (.float bits) =>
    match (Number.float bits).parts? with
    | some (m, e) =>
      let count := if 0 ≤ e then m * Number.power e else m / Number.power (-e)
      some (min count.toNat maxCount)
    | none => none
  | _ => none

def checkType (types : List String) (value : Json) (path : Json.Path) : List Violation :=
  if types.any (hasType value) then [] else breach path (.wrongType value types)

/-- The types of a list in the order of their names. -/
def typeNames : List String :=
  ["array", "boolean", "integer", "null", "number", "object", "string"]

def listedTypes (items : List Json) : List String :=
  typeNames.filter fun name => items.contains (.str name)

def isConst (expected value : Json) : Bool :=
  match expected, value with
  | .num a, .num b => a.close b
  | a, b => a.same b

/-- A limit on numbers. -/
def checkLimit (fails : Number → Number → Bool) (failure : Json → Json → Breach) (limit : Json)
    (value : Json) (path : Json.Path) : List Violation :=
  match limit, value with
  | .num l, .num n => if fails n l then breach path (failure value limit) else []
  | _, _ => []

/-- A limit on a size. -/
def checkSize (size? : Json → Option Nat) (fails : Nat → Nat → Bool)
    (failure : Json → Nat → Breach) (limit : Json) (value : Json) (path : Json.Path) :
    List Violation :=
  match countOf? limit, size? value with
  | some l, some n => if fails n l then breach path (failure value l) else []
  | _, _ => []

def textSize? : Json → Option Nat
  | .str s => some s.length
  | _ => none

def itemCount? : Json → Option Nat
  | .arr items => some items.length
  | _ => none

def memberCount? : Json → Option Nat
  | .obj members => some members.length
  | _ => none

def checkText (failure : String → Option Breach) (value : Json) (path : Json.Path) :
    List Violation :=
  match value with
  | .str s => (failure s).elim [] (breach path)
  | _ => []

def isJson (text : String) : Bool := (Json.read text).isOk

/-- The media type of a text, behind its encoding if there is one. -/
def checkMedia (schema : Json.Members) (media : String) (value : Json) (path : Json.Path) :
    List Violation :=
  if media ≠ "application/json" then []
  else
    match value with
    | .str s =>
      match Dict.get? schema "contentEncoding" with
      | none => if isJson s then [] else breach path (.badMedia value media)
      | some (.str "base64") =>
        match Text.Base64.decode s.toList with
        | none => breach path (.badEncoding value "base64")
        | some bytes =>
          match Text.Utf8.fault? bytes with
          | some fault => breach [] (.badUtf8 fault.index fault.length)
          | none =>
            if (String.fromUTF8? ⟨bytes.toArray⟩).any isJson then []
            else breach path (.badMedia value media)
      | some _ => []
    | _ => []

def checkEncoding (schema : Json.Members) (encoding : String) (value : Json) (path : Json.Path) :
    List Violation :=
  if encoding ≠ "base64" ∨ Dict.contains schema "contentMediaType" then []
  else
    checkText (fun s =>
      if (Text.Base64.decode s.toList).isSome then none else some (.badEncoding value encoding))
      value path

/-! Keywords that hold schemas -/

section

variable (check : Checker)

def checkItemsFrom (schema : Json) (path : Json.Path) : Nat → List Json → List Violation
  | _, [] => []
  | i, item :: items =>
    check schema item (path ++ [.index i]) ++ checkItemsFrom schema path (i + 1) items

def checkTuple (path : Json.Path) : Nat → List Json → List Json → List Violation
  | i, schema :: schemas, item :: items =>
    check schema item (path ++ [.index i]) ++ checkTuple path (i + 1) schemas items
  | _, _, _ => []

def checkItems (schema value : Json) (path : Json.Path) : List Violation :=
  match value with
  | .arr items =>
    match schema with
    | .arr schemas => checkTuple check path 0 schemas items
    | schema => checkItemsFrom check schema path 0 items
  | _ => []

def checkAdditionalItems (parent : Json.Members) (schema value : Json) (path : Json.Path) :
    List Violation :=
  match Dict.get? parent "items", value with
  | some (.arr schemas), .arr items =>
    let extra := items.drop schemas.length
    match schema with
    | .obj _ => checkItemsFrom check schema path schemas.length extra
    | .bool false => if extra.isEmpty then [] else breach path (.extraItems extra)
    | _ => []
  | _, _ => []

def checkContains (schema value : Json) (path : Json.Path) : List Violation :=
  match value with
  | .arr items =>
    if items.any (check.accepts schema) then [] else breach path (.noneContained value)
  | _ => []

def membersOf (parent : Json.Members) (key : String) : Json.Members :=
  match Dict.get? parent key with
  | some (.obj members) => members
  | _ => []

/-- Whether the members of a schema's `properties` and `patternProperties` are looked at together
with its `additionalProperties`. -/
def underAdditional (parent : Json.Members) : Bool :=
  match Dict.get? parent "additionalProperties" with
  | some (.bool false) => true
  | some (.obj _) => true
  | _ => false

def checkProperties (schemas : Json.Members) (value : Json) (path : Json.Path) : List Violation :=
  match value with
  | .obj members =>
    schemas.flatMap fun (name, schema) =>
      match Dict.get? members name with
      | some member => check schema member (path ++ [.key name])
      | none => []
  | _ => []

def matchesPattern (pattern name : String) : Bool :=
  (Pattern.read? .wide pattern).any (·.occursIn name)

def checkPatternProperties (schemas : Json.Members) (value : Json) (path : Json.Path) :
    List Violation :=
  match value with
  | .obj members =>
    schemas.flatMap fun (pattern, schema) =>
      members.flatMap fun (name, member) =>
        if matchesPattern pattern name then check schema member (path ++ [.key name]) else []
  | _ => []

/-- The schemas that a member is declared to have by its name. -/
def declared (parent : Json.Members) (name : String) : List Json :=
  (Dict.get? (membersOf parent "properties") name).toList ++
    (membersOf parent "patternProperties").filterMap fun (pattern, schema) =>
      if matchesPattern pattern name then some schema else none

def checkAdditionalProperties (parent : Json.Members) (schema value : Json) (path : Json.Path) :
    List Violation :=
  match value with
  | .obj members =>
    let checked (other : Json.Path → Json → List Violation) : List Violation :=
      members.flatMap fun (name, member) =>
        let place := path ++ [.key name]
        match declared parent name with
        | [] => other place member
        | schemas => schemas.flatMap fun s => check s member place
    match schema with
    | .bool false =>
      if Dict.contains parent "properties" || Dict.contains parent "patternProperties" then
        let extra := members.filter fun (name, _) => (declared parent name).isEmpty
        checked (fun _ _ => []) ++
          if extra.isEmpty then [] else breach path (.extraProperties (extra.map (·.1)))
      else
        match members with
        | [] => []
        | (_, member) :: _ => breach path (.falseSchema member)
    | .obj _ => checked fun place member => check schema member place
    | _ => []
  | _ => []

def checkPropertyNames (schema value : Json) (path : Json.Path) : List Violation :=
  match value with
  | .obj members =>
    match schema with
    | .obj _ =>
      members.flatMap fun (name, _) =>
        (check schema (.str name) path).map fun v => ⟨path, .propertyName v.breach⟩
    | .bool false => if members.isEmpty then [] else breach path (.falseSchema value)
    | _ => []
  | _ => []

def checkRequired (names : List Json) (value : Json) (path : Json.Path) : List Violation :=
  match value with
  | .obj members =>
    names.flatMap fun name =>
      match name with
      | .str name => if Dict.contains members name then [] else breach path (.missing name)
      | _ => []
  | _ => []

def checkDependencies (schemas : Json.Members) (value : Json) (path : Json.Path) :
    List Violation :=
  match value with
  | .obj members =>
    schemas.flatMap fun (name, dependency) =>
      if Dict.contains members name then
        match dependency with
        | .arr names => checkRequired names value path
        | schema => check schema value path
      else []
  | _ => []

def checkAnyOf (schemas : List Json) (value : Json) (path : Json.Path) : List Violation :=
  if schemas.any fun s => check.accepts s value then [] else breach path (.noneOfAny value)

def checkOneOf (schemas : List Json) (value : Json) (path : Json.Path) : List Violation :=
  match schemas.dropWhile fun s => !(check.accepts s value) with
  | [] => breach path (.noneOfOne value)
  | _ :: rest =>
    if rest.any fun s => check.accepts s value then breach path (.manyOfOne value) else []

def checkIf (parent : Json.Members) (schema value : Json) (path : Json.Path) : List Violation :=
  let branch := if check.accepts schema value then "then" else "else"
  match Dict.get? parent branch with
  | some s => check s value path
  | none => []

/-- The violations of one keyword of a schema. -/
def checkKeyword (parent : Json.Members) (keyword : String) (argument value : Json)
    (path : Json.Path) : List Violation :=
  match keyword, argument with
  | "type", .str type => checkType [type] value path
  | "type", .arr items => checkType (listedTypes items) value path
  | "const", expected => if isConst expected value then [] else breach path (.notConst expected)
  | "enum", .arr options =>
    if options.any (·.same value) then [] else breach path (.notAmong value options)
  | "minimum", limit => checkLimit (fun n l => n.lt l) .belowMinimum limit value path
  | "maximum", limit => checkLimit (fun n l => l.lt n) .aboveMaximum limit value path
  | "exclusiveMinimum", limit => checkLimit (fun n l => !(l.lt n)) .atMinimum limit value path
  | "exclusiveMaximum", limit => checkLimit (fun n l => !(n.lt l)) .atMaximum limit value path
  | "multipleOf", .num unit =>
    match value with
    | .num n => if n.isMultiple unit then [] else breach path (.notMultiple value unit)
    | _ => []
  | "minLength", limit => checkSize textSize? (· < ·) .tooShort limit value path
  | "maxLength", limit => checkSize textSize? (· > ·) .tooLong limit value path
  | "minItems", limit => checkSize itemCount? (· < ·) .fewItems limit value path
  | "maxItems", limit => checkSize itemCount? (· > ·) .manyItems limit value path
  | "minProperties", limit => checkSize memberCount? (· < ·) .fewProperties limit value path
  | "maxProperties", limit => checkSize memberCount? (· > ·) .manyProperties limit value path
  | "pattern", .str pattern =>
    checkText (fun s =>
      if (Pattern.ofSchema? pattern).any (·.occursIn s) then none
      else some (.noMatch value pattern)) value path
  | "format", .str format =>
    checkText (fun s => if hasFormat format s then none else some (.badFormat value format))
      value path
  | "contentMediaType", .str media => checkMedia parent media value path
  | "contentEncoding", .str encoding => checkEncoding parent encoding value path
  | "uniqueItems", .bool true =>
    match value with
    | .arr items => if Json.allDifferent items then [] else breach path (.repeatedItems value)
    | _ => []
  | "items", schema => checkItems check schema value path
  | "additionalItems", schema => checkAdditionalItems check parent schema value path
  | "contains", schema => checkContains check schema value path
  | "properties", .obj schemas =>
    if underAdditional parent then [] else checkProperties check schemas value path
  | "patternProperties", .obj schemas =>
    if underAdditional parent then [] else checkPatternProperties check schemas value path
  | "additionalProperties", schema => checkAdditionalProperties check parent schema value path
  | "propertyNames", schema => checkPropertyNames check schema value path
  | "required", .arr names => checkRequired names value path
  | "dependencies", .obj schemas => checkDependencies check schemas value path
  | "allOf", .arr schemas => schemas.flatMap fun s => check s value path
  | "anyOf", .arr schemas => checkAnyOf check schemas value path
  | "oneOf", .arr schemas => checkOneOf check schemas value path
  | "not", schema =>
    if check.accepts schema value then breach path (.excluded value schema) else []
  | "if", schema => checkIf check parent schema value path
  | _, _ => []

end

/-- Checks with the schemas of a document, following at most `fuel` schemas into each other. -/
def checkWith (document : Document) : Nat → Checker
  | 0 => fun _ _ _ => []
  | fuel + 1 => fun schema value path =>
    match schema with
    | .bool false => breach path (.falseSchema value)
    | .obj members =>
      match Dict.get? members Reference.key with
      | some (.str reference) =>
        match document.find? reference with
        | some target => checkWith document fuel target value path
        | none => breach [] (.unresolved (document.fullReference reference))
      | _ =>
        members.flatMap fun (keyword, argument) =>
          checkKeyword (checkWith document fuel) members keyword argument value path
    | _ => []

/-- As many steps as there are pairs of a part of the schema and a part of the value. -/
def stepsFor (document : Document) (value : Json) : Nat :=
  (document.root.size + 1) * (value.size + 1)

/-- The violations of a value against a whole document. -/
def violations (document : Document) (value : Json) : List Violation :=
  checkWith document (stepsFor document value) document.root value []

end RpcContract.Validation
