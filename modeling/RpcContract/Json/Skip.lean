import RpcContract.Json.Reader

/-!
Passing over a JSON value that is not wanted. It may nest to any depth; its numbers may be of any
size and its strings may hold surrogates of any kind.
-/

namespace RpcContract.Json.Cursor

def skipStringBody : Nat → Cursor → Except ReadError Cursor
  | 0, c => c.fail .eofInString
  | fuel + 1, c =>
    match c.rest with
    | [] => c.fail .eofInString
    | x :: _ =>
      if x = '"' then .ok c.next
      else if x = '\\' then
        match c.next.rest with
        | 'u' :: _ =>
          match c.next.next.hexEscape with
          | .ok (_, c) => skipStringBody fuel c
          | .error e => .error e
        | _ =>
          match c.next.escape with
          | .ok (_, c) => skipStringBody fuel c
          | .error e => .error e
      else if x.toNat < 32 then c.fail .controlCharacter
      else skipStringBody fuel c.next

def skipString (c : Cursor) : Except ReadError Cursor := skipStringBody (c.rest.length + 1) c

def skipDigits (c : Cursor) : Cursor := c.past (c.rest.takeWhile Decimal.isDigit)

def atDigit (c : Cursor) : Bool := c.rest.head?.any Decimal.isDigit

def skipExponent (c : Cursor) : Except ReadError Cursor :=
  if c.rest.head?.any isExponentMark then
    let c := c.next
    let c := if c.rest.head?.any fun x => x = '+' || x = '-' then c.next else c
    if c.atDigit then .ok c.skipDigits else c.failAhead .invalidNumber
  else .ok c

/-- A number, from its first digit on. -/
def skipNumber (c : Cursor) : Except ReadError Cursor :=
  if !c.atDigit then c.failAhead .invalidNumber
  else if c.rest.head? = some '0' ∧ c.next.atDigit then c.next.failAhead .invalidNumber
  else
    let c := c.skipDigits
    if c.rest.head? = some '.' then
      let c := c.next
      if c.atDigit then c.skipDigits.skipExponent else c.failAhead .invalidNumber
    else c.skipExponent

/-- A bracket that is still open. -/
inductive Open where
  | list
  | object
deriving DecidableEq

/-- A scalar, or the opening bracket of a list or object. -/
def skipStep (c : Cursor) : Except ReadError (Option Open × Cursor) :=
  let (x, c) := c.peek
  match x with
  | none => c.failAhead .eofInValue
  | some 'n' => do return (none, ← c.next.word ['u', 'l', 'l'])
  | some 't' => do return (none, ← c.next.word ['r', 'u', 'e'])
  | some 'f' => do return (none, ← c.next.word ['a', 'l', 's', 'e'])
  | some '-' => do return (none, ← c.next.skipNumber)
  | some '"' => do return (none, ← c.next.skipString)
  | some '[' => .ok (some .list, c.next)
  | some '\x7b' => .ok (some .object, c.next)
  | some x =>
    if Decimal.isDigit x then do return (none, ← c.skipNumber)
    else c.failAhead .expectedValue

/-- Closes what can be closed; the brackets left open are those around the next value, none if
there is no next one. -/
def skipClosing : Nat → Bool → List Open → Cursor → Except ReadError (List Open × Cursor)
  | _, _, [], c => .ok ([], c)
  | 0, _, _ :: _, c => c.failAhead .eofInValue
  | fuel + 1, afterValue, frame :: frames, c =>
    let (x, c) := c.peek
    let closed := x = some (match frame with | .list => ']' | .object => '\x7d')
    if x = some ',' ∧ afterValue then .ok (frame :: frames, c.next)
    else if closed then skipClosing fuel true frames c.next
    else if x = none then
      c.failAhead (match frame with | .list => .eofInList | .object => .eofInObject)
    else if afterValue then
      c.failAhead (match frame with
        | .list => .expectedListCommaOrEnd
        | .object => .expectedObjectCommaOrEnd)
    else .ok (frame :: frames, c)

def skipKey (c : Cursor) : Except ReadError Cursor := do
  let (x, c) := c.peek
  if x = some '"' then
    let c ← c.next.skipString
    c.colon
  else c.failAhead (if x = none then .eofInObject else .keyNotString)

def skipWith : Nat → List Open → Cursor → Except ReadError Cursor
  | 0, _, c => c.failAhead .eofInValue
  | fuel + 1, frames, c => do
    let (opened, c) ← c.skipStep
    let (frames, c) ← skipClosing (c.rest.length + 1) opened.isNone
      (match opened with | some frame => frame :: frames | none => frames) c
    match frames with
    | [] => return c
    | .list :: _ => skipWith fuel frames c
    | .object :: _ =>
      let c ← c.skipKey
      skipWith fuel frames c

def skip (c : Cursor) : Except ReadError Cursor := skipWith (c.rest.length + 1) [] c

end RpcContract.Json.Cursor
