import RpcContract.Json.Cursor

/-!
Reading JSON text as a value. Of equal keys the last one counts; values nest up to 127 levels
deep.
-/

namespace RpcContract.Json

namespace Cursor

def maxDepth : Nat := 128

/-- Looks at the character after the blanks. -/
def peek (c : Cursor) : Option Char × Cursor :=
  let c := c.skipBlanks
  (c.rest.head?, c)

/-- Moves to the next item of a list, none at the closing bracket. -/
def toItem (c : Cursor) (first : Bool) : Except ReadError (Option Cursor) :=
  let (x, c) := c.peek
  if x = some ']' then .ok none
  else if first then if x = none then c.failAhead .eofInList else .ok (some c)
  else if x = some ',' then
    let (x, c) := c.next.peek
    if x = some ']' then c.failAhead .trailingComma
    else if x = none then c.failAhead .eofInValue
    else .ok (some c)
  else c.failAhead (if x = none then .eofInList else .expectedListCommaOrEnd)

/-- Moves into the next key of an object, none at the closing brace. -/
def toKey (c : Cursor) (first : Bool) : Except ReadError (Option Cursor) :=
  let (x, c) := c.peek
  if x = some '\x7d' then .ok none
  else if first then
    if x = some '"' then .ok (some c.next)
    else c.failAhead (if x = none then .eofInObject else .keyNotString)
  else if x = some ',' then
    let (x, c) := c.next.peek
    if x = some '"' then .ok (some c.next)
    else if x = some '\x7d' then c.failAhead .trailingComma
    else c.failAhead (if x = none then .eofInValue else .keyNotString)
  else c.failAhead (if x = none then .eofInObject else .expectedObjectCommaOrEnd)

def colon (c : Cursor) : Except ReadError Cursor :=
  let (x, c) := c.peek
  if x = some ':' then .ok c.next
  else c.failAhead (if x = none then .eofInObject else .expectedColon)

/-- The key of a member with its colon. -/
def key (c : Cursor) : Except ReadError (String × Cursor) := do
  let (k, c) ← c.string
  let c ← c.colon
  return (k, c)

mutual

def valueWith (depth : Nat) : Nat → Cursor → Except ReadError (Json × Cursor)
  | 0, c => c.failAhead .eofInValue
  | fuel + 1, c =>
    let (x, c) := c.peek
    match x with
    | none => c.failAhead .eofInValue
    | some 'n' => do return (.null, ← c.next.word ['u', 'l', 'l'])
    | some 't' => do return (.bool true, ← c.next.word ['r', 'u', 'e'])
    | some 'f' => do return (.bool false, ← c.next.word ['a', 'l', 's', 'e'])
    | some '-' => do
      let (n, c) ← c.next.number true
      return (.num n, c)
    | some '"' => do
      let (s, c) ← c.next.string
      return (.str s, c)
    | some '[' =>
      if maxDepth ≤ depth + 1 then c.failAhead .tooDeep
      else itemsWith (depth + 1) fuel true c.next []
    | some '\x7b' =>
      if maxDepth ≤ depth + 1 then c.failAhead .tooDeep
      else membersWith (depth + 1) fuel true c.next []
    | some x =>
      if Decimal.isDigit x then do
        let (n, c) ← c.number false
        return (.num n, c)
      else c.failAhead .expectedValue

def itemsWith (depth : Nat) :
    Nat → Bool → Cursor → List Json → Except ReadError (Json × Cursor)
  | 0, _, c, _ => c.failAhead .eofInList
  | fuel + 1, first, c, taken =>
    match c.toItem first with
    | .error e => .error e
    | .ok none => .ok (.arr taken.reverse, c.skipBlanks.next)
    | .ok (some c) =>
      match valueWith depth fuel c with
      | .error e => .error e
      | .ok (v, c) => itemsWith depth fuel false c (v :: taken)

def membersWith (depth : Nat) :
    Nat → Bool → Cursor → Members → Except ReadError (Json × Cursor)
  | 0, _, c, _ => c.failAhead .eofInObject
  | fuel + 1, first, c, taken =>
    match c.toKey first with
    | .error e => .error e
    | .ok none => .ok (.obj taken, c.skipBlanks.next)
    | .ok (some c) =>
      match c.key with
      | .error e => .error e
      | .ok (k, c) =>
        match valueWith depth fuel c with
        | .error e => .error e
        | .ok (v, c) => membersWith depth fuel false c (Dict.insert taken k v)

end

/-- A value inside `depth` enclosing arrays and objects. -/
def value (c : Cursor) (depth : Nat) : Except ReadError (Json × Cursor) :=
  valueWith depth (2 * c.rest.length + 1) c

/-- The end of the text. -/
def finish (c : Cursor) : Except ReadError Unit :=
  let (x, c) := c.peek
  if x = none then .ok () else c.failAhead .trailingCharacters

end Cursor

def read (text : String) : Except ReadError Json := do
  let (v, c) ← (Cursor.start text).value 0
  c.finish
  return v

end RpcContract.Json
