import RpcContract.Decimal.Reading
import RpcContract.Json.Basic

/-!
JSON pointers: a path through object keys and array indices as one text. Every token follows a
slash; `~1` stands for a slash inside a token and `~0` for a tilde.
-/

namespace RpcContract.Json.Pointer

/-- The pieces of a text between its slashes. -/
def pieces : List Char → List (List Char)
  | [] => [[]]
  | '/' :: cs => [] :: pieces cs
  | c :: cs =>
    match pieces cs with
    | [] => [[c]]
    | p :: ps => (c :: p) :: ps

def unescape : List Char → List Char
  | '~' :: '1' :: cs => '/' :: unescape cs
  | '~' :: '0' :: cs => '~' :: unescape cs
  | c :: cs => c :: unescape cs
  | [] => []

/-- The tokens of a pointer, none if the text is no pointer. -/
def tokens? (pointer : String) : Option (List String) :=
  match pointer.toList with
  | [] => some []
  | '/' :: cs => some ((pieces cs).map fun p => String.ofList (unescape p))
  | _ => none

/-- The index a token denotes: digits without a sign and without leading zeros. -/
def index? (token : String) : Option Nat :=
  let cs := token.toList
  if cs ≠ [] ∧ cs.all Decimal.isDigit ∧ (cs.head? ≠ some '0' ∨ cs.length = 1) then
    some (Decimal.natOf cs)
  else none

/-- One step down into a value. -/
def child? (value : Json) (token : String) : Option Json :=
  match value with
  | .obj members => Dict.get? members token
  | .arr items => (index? token).bind (items[·]?)
  | _ => none

def follow : Json → List String → Option Json
  | value, [] => some value
  | value, token :: rest => (child? value token).bind (follow · rest)

end Pointer

def atPointer? (value : Json) (pointer : String) : Option Json :=
  (Pointer.tokens? pointer).bind (Pointer.follow value)

end RpcContract.Json
