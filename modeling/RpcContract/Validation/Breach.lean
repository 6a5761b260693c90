import RpcContract.Decimal.Layout
import RpcContract.Json.Compare
import RpcContract.Json.Path
import RpcContract.Json.Printer

/-!
The ways in which a value can fail a schema, and their wording.
-/

namespace RpcContract.Validation

inductive Breach where
  | falseSchema (value : Json)
  | wrongType (value : Json) (types : List String)
  | notConst (expected : Json)
  | notAmong (value : Json) (options : List Json)
  | belowMinimum (value limit : Json)
  | aboveMaximum (value limit : Json)
  | atMinimum (value limit : Json)
  | atMaximum (value limit : Json)
  | notMultiple (value : Json) (unit : Number)
  | tooShort (value : Json) (limit : Nat)
  | tooLong (value : Json) (limit : Nat)
  | noMatch (value : Json) (pattern : String)
  | badFormat (value : Json) (format : String)
  | badEncoding (value : Json) (encoding : String)
  | badMedia (value : Json) (media : String)
  | badUtf8 (index : Nat) (length : Option Nat)
  | fewItems (value : Json) (limit : Nat)
  | manyItems (value : Json) (limit : Nat)
  | repeatedItems (value : Json)
  | extraItems (items : List Json)
  | noneContained (value : Json)
  | missing (name : String)
  | fewProperties (value : Json) (limit : Nat)
  | manyProperties (value : Json) (limit : Nat)
  | extraProperties (names : List String)
  | propertyName (breach : Breach)
  | noneOfAny (value : Json)
  | noneOfOne (value : Json)
  | manyOfOne (value : Json)
  | excluded (value schema : Json)
  | unresolved (reference : String)
deriving Repr

def plural (n : Nat) (one many : String) : String := if n = 1 then one else many

/-- The list of unexpected things with its verb. -/
def unexpected (names : List String) : String :=
  "(" ++ ", ".intercalate names ++ " " ++ plural names.length "was" "were" ++ " unexpected)"

def inQuotes (s : String) : String := "\"" ++ s ++ "\""

def Breach.text : Breach → String
  | .falseSchema value => "False schema does not allow " ++ value.compact
  | .wrongType value types =>
    value.compact ++ " is not of type" ++ plural types.length "" "s" ++ " " ++
      ", ".intercalate (types.map inQuotes)
  | .notConst expected => expected.compact ++ " was expected"
  | .notAmong value options => value.compact ++ " is not one of " ++ (Json.arr options).compact
  | .belowMinimum value limit =>
    value.compact ++ " is less than the minimum of " ++ limit.compact
  | .aboveMaximum value limit =>
    value.compact ++ " is greater than the maximum of " ++ limit.compact
  | .atMinimum value limit =>
    value.compact ++ " is less than or equal to the minimum of " ++ limit.compact
  | .atMaximum value limit =>
    value.compact ++ " is greater than or equal to the maximum of " ++ limit.compact
  | .notMultiple value unit =>
    value.compact ++ " is not a multiple of " ++ Decimal.plain.writeBits unit.bits
  | .tooShort value limit =>
    value.compact ++ " is shorter than " ++ toString limit ++
      plural limit " character" " characters"
  | .tooLong value limit =>
    value.compact ++ " is longer than " ++ toString limit ++ plural limit " character" " characters"
  | .noMatch value pattern => value.compact ++ " does not match " ++ inQuotes pattern
  | .badFormat value format => value.compact ++ " is not a " ++ inQuotes format
  | .badEncoding value encoding =>
    value.compact ++ " is not compliant with " ++ inQuotes encoding ++ " content encoding"
  | .badMedia value media =>
    value.compact ++ " is not compliant with " ++ inQuotes media ++ " media type"
  | .badUtf8 index none => "incomplete utf-8 byte sequence from index " ++ toString index
  | .badUtf8 index (some length) =>
    "invalid utf-8 sequence of " ++ toString length ++ " bytes from index " ++ toString index
  | .fewItems value limit =>
    value.compact ++ " has less than " ++ toString limit ++ plural limit " item" " items"
  | .manyItems value limit =>
    value.compact ++ " has more than " ++ toString limit ++ plural limit " item" " items"
  | .repeatedItems value => value.compact ++ " has non-unique elements"
  | .extraItems items =>
    "Additional items are not allowed " ++ unexpected (items.map Json.compact)
  | .noneContained value => "None of " ++ value.compact ++ " are valid under the given schema"
  | .missing name => Json.quote name ++ " is a required property"
  | .fewProperties value limit =>
    value.compact ++ " has less than " ++ toString limit ++ plural limit " property" " properties"
  | .manyProperties value limit =>
    value.compact ++ " has more than " ++ toString limit ++ plural limit " property" " properties"
  | .extraProperties names =>
    "Additional properties are not allowed " ++
      unexpected (names.map fun name => "'" ++ name ++ "'")
  | .propertyName breach => breach.text
  | .noneOfAny value =>
    value.compact ++ " is not valid under any of the schemas listed in the 'anyOf' keyword"
  | .noneOfOne value =>
    value.compact ++ " is not valid under any of the schemas listed in the 'oneOf' keyword"
  | .manyOfOne value =>
    value.compact ++ " is valid under more than one of the schemas listed in the 'oneOf' keyword"
  | .excluded value schema => schema.compact ++ " is not allowed for " ++ value.compact
  | .unresolved reference => "Invalid reference: " ++ reference

/-- A breach and the place of the value that it concerns. -/
structure Violation where
  path : Json.Path
  breach : Breach
deriving Repr

def stepPointer : Json.Step → String
  | .key name =>
    "/" ++ String.ofList (name.toList.flatMap fun c =>
      if c = '~' then ['~', '0'] else if c = '/' then ['~', '1'] else [c])
  | .index i => "/" ++ toString i

/-- A place as a pointer. -/
def location : Json.Path → String
  | [] => "(root)"
  | steps => String.join (steps.map stepPointer)

def Violation.text (v : Violation) : String := location v.path ++ ": " ++ v.breach.text

end RpcContract.Validation
