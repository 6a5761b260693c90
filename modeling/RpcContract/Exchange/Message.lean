import RpcContract.Json.Decode
import RpcContract.Json.Skip

/-!
The messages of a recorded exchange. A message is read from JSON text, as an object or as the list
of its fields; members that are no fields are passed over.
-/

namespace RpcContract

structure Message where
  method : Option String
  params : Option Json
  /-- A null result is a result. -/
  result : Option Json
  error : Option Json
deriving DecidableEq, Repr

namespace Message

open Json (Cursor Read ReadError)

def empty : Message := ⟨none, none, none, none⟩

def fields : List String := ["method", "params", "result", "error"]

/-- The error for a value of a wrong type. A scalar has been read when it is noticed. -/
def misfit (c : Cursor) (expected : String) : Except ReadError α :=
  let (x, c) := c.peek
  match x with
  | some '[' => c.fail (.invalidType "sequence" expected)
  | some '\x7b' => c.fail (.invalidType "map" expected)
  | _ =>
    match c.value 0 with
    | .ok (value, c) => c.fail (.invalidType value.described expected)
    | .error e => .error e

/-- A value in which null stands for nothing. -/
def optionalValue (c : Cursor) : Except ReadError (Option Json × Cursor) := do
  let (value, c) ← c.value 1
  return (if value = .null then none else some value, c)

def optionalString (c : Cursor) : Except ReadError (Option String × Cursor) := do
  let (x, c) := c.peek
  match x with
  | none => c.failAhead .eofInValue
  | some 'n' =>
    let c ← c.next.word ['u', 'l', 'l']
    return (none, c)
  | some '"' =>
    let (s, c) ← c.next.string
    return (some s, c)
  | _ => misfit c "a string"

/-- Reads the value of a field. -/
def field (m : Message) (name : String) (c : Cursor) : Except ReadError (Message × Cursor) := do
  if name = "method" then
    let (method, c) ← optionalString c
    return ({ m with method }, c)
  else if name = "params" then
    let (params, c) ← optionalValue c
    return ({ m with params }, c)
  else if name = "result" then
    let (result, c) ← c.value 1
    return ({ m with result := some result }, c)
  else if name = "error" then
    let (error, c) ← optionalValue c
    return ({ m with error }, c)
  else
    let c ← c.skip
    return (m, c)

/-- The members of an object, up to and with the closing brace. -/
def members : Nat → Bool → List String → Message → Cursor → Except ReadError (Message × Cursor)
  | 0, _, _, _, c => c.failAhead .eofInObject
  | fuel + 1, first, seen, m, c => do
    match ← c.toKey first with
    | none => return (m, c.skipBlanks.next)
    | some c =>
      let (key, c) ← c.string
      if key ∈ seen then
        let (x, c) := c.peek
        (if x = some '\x7d' then c.next else c).fail (.duplicateField key)
      else
        let c ← c.colon
        let (m, c) ← m.field key c
        members fuel false (if key ∈ fields then key :: seen else seen) m c

/-- The end of a list of which all fields have been read. -/
def listEnd (c : Cursor) : Except ReadError Cursor :=
  let (x, c) := c.peek
  match x with
  | some ']' => .ok c.next
  | some ',' =>
    let (x, c) := c.next.peek
    c.failAhead (if x = some ']' then .trailingComma else .trailingCharacters)
  | none => c.failAhead .eofInList
  | some _ => c.failAhead .trailingCharacters

/-- The fields in their order, up to and with the closing bracket. -/
def elements (first : Bool) : List String → Message → Cursor → Except ReadError (Message × Cursor)
  | [], m, c => do return (m, ← listEnd c)
  | name :: names, m, c => do
    match ← c.toItem first with
    | none =>
      let c := c.skipBlanks.next
      if first then c.fail (.invalidLength 0 "struct Message with 4 elements")
      else return (m, c)
    | some c =>
      let (m, c) ← m.field name c
      elements false names m c

def readAt (c : Cursor) : Except ReadError (Message × Cursor) :=
  let (x, c) := c.peek
  match x with
  | none => c.failAhead .eofInValue
  | some '\x7b' => members (c.rest.length + 1) true [] empty c.next
  | some '[' => elements true fields empty c.next
  | some _ => misfit c "struct Message"

def read (text : String) : Except ReadError Message := do
  let (m, c) ← readAt (Cursor.start text)
  c.finish
  return m

end Message

end RpcContract
