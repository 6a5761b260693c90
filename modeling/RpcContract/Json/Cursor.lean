import RpcContract.Decimal.Reading
import RpcContract.Json.Basic

/-!
Reading the tokens of JSON text. A `Cursor` is the unread rest of a text together with its place,
a line and a column in bytes; every error names the place where it was noticed.
-/

namespace RpcContract.Json

inductive ReadFault where
  | eofInValue
  | eofInString
  | eofInList
  | eofInObject
  | expectedValue
  | expectedIdent
  | expectedListCommaOrEnd
  | expectedObjectCommaOrEnd
  | expectedColon
  | keyNotString
  | trailingComma
  | trailingCharacters
  | invalidNumber
  | numberOutOfRange
  | invalidEscape
  | controlCharacter
  | loneSurrogate
  | endOfEscape
  | tooDeep
  | invalidType (found expected : String)
  | invalidLength (length : Nat) (expected : String)
  | duplicateField (name : String)
deriving DecidableEq, Repr

def ReadFault.text : ReadFault → String
  | .eofInValue => "EOF while parsing a value"
  | .eofInString => "EOF while parsing a string"
  | .eofInList => "EOF while parsing a list"
  | .eofInObject => "EOF while parsing an object"
  | .expectedValue => "expected value"
  | .expectedIdent => "expected ident"
  | .expectedListCommaOrEnd => "expected `,` or `]`"
  | .expectedObjectCommaOrEnd => "expected `,` or `\x7d`"
  | .expectedColon => "expected `:`"
  | .keyNotString => "key must be a string"
  | .trailingComma => "trailing comma"
  | .trailingCharacters => "trailing characters"
  | .invalidNumber => "invalid number"
  | .numberOutOfRange => "number out of range"
  | .invalidEscape => "invalid escape"
  | .controlCharacter => "control character (\\u0000-\\u001F) found while parsing a string"
  | .loneSurrogate => "lone leading surrogate in hex escape"
  | .endOfEscape => "unexpected end of hex escape"
  | .tooDeep => "recursion limit exceeded"
  | .invalidType found expected => "invalid type: " ++ found ++ ", expected " ++ expected
  | .invalidLength length expected =>
    "invalid length " ++ toString length ++ ", expected " ++ expected
  | .duplicateField name => "duplicate field `" ++ name ++ "`"

structure Place where
  line : Nat
  column : Nat
deriving DecidableEq, Repr

structure ReadError where
  fault : ReadFault
  place : Place
deriving DecidableEq, Repr

def ReadError.message (e : ReadError) : String :=
  e.fault.text ++ " at line " ++ toString e.place.line ++ " column " ++ toString e.place.column

structure Cursor where
  rest : List Char
  place : Place
deriving Repr

abbrev Read (α : Type) := Except ReadError (α × Cursor)

namespace Place

def past (p : Place) (c : Char) : Place :=
  if c = '\n' then ⟨p.line + 1, 0⟩ else ⟨p.line, p.column + c.utf8Size⟩

/-- One byte into the given character. -/
def into (p : Place) (c : Char) : Place :=
  if c = '\n' then ⟨p.line + 1, 0⟩ else ⟨p.line, p.column + 1⟩

end Place

namespace Cursor

def start (text : String) : Cursor := ⟨text.toList, ⟨1, 0⟩⟩

def next (c : Cursor) : Cursor :=
  match c.rest with
  | [] => c
  | x :: rest => ⟨rest, c.place.past x⟩

def advance (c : Cursor) : Nat → Cursor
  | 0 => c
  | n + 1 => c.next.advance n

/-- Passes over a run of characters. -/
def past (c : Cursor) (run : List Char) : Cursor := c.advance run.length

/-- An error at the byte before the cursor. -/
def fail (c : Cursor) (fault : ReadFault) : Except ReadError α := .error ⟨fault, c.place⟩

/-- An error at the byte after the cursor. -/
def failAhead (c : Cursor) (fault : ReadFault) : Except ReadError α :=
  .error ⟨fault, match c.rest with | [] => c.place | x :: _ => c.place.into x⟩

def isBlank (c : Char) : Bool := c = ' ' || c = '\n' || c = '\t' || c = '\r'

def skipBlanks (c : Cursor) : Cursor := c.past (c.rest.takeWhile isBlank)

def eof : Cursor → Bool
  | ⟨[], _⟩ => true
  | _ => false

/-! Words and numbers -/

/-- The rest of a word of which the first letter has been seen. -/
def word (c : Cursor) : List Char → Except ReadError Cursor
  | [] => .ok c
  | x :: xs =>
    match c.rest with
    | [] => c.fail .eofInValue
    | y :: _ => if x = y then c.next.word xs else c.failAhead .expectedIdent

def maxUnsigned : Nat := Nat.pow 2 64 - 1

/-- Takes digits into the significand until it would pass 64 bits; returns the significand, the
number of digits taken and those left. -/
def significand (limit : Nat) : Nat → Nat → List Char → Nat × Nat × List Char
  | value, taken, [] => (value, taken, [])
  | value, taken, d :: ds =>
    let value' := 10 * value + Decimal.digitValue d
    if limit < value' then (value, taken, d :: ds) else significand limit value' (taken + 1) ds

/-- `significand · 10^exponent`, scaled by one power of ten at a time; none if it overflows. -/
def scale : Nat → Float → Int → Option Float
  | 0, f, _ => some f
  | fuel + 1, f, exponent =>
    if exponent.natAbs ≤ 308 then
      let power := Float.ofBits (Decimal.nearest 1 exponent.natAbs)
      if 0 ≤ exponent then
        let g := f * power
        if g.isInf then none else some g
      else some (f / power)
    else if f == 0.0 then some f
    else if 0 ≤ exponent then none
    else scale fuel (f / 1e308) (exponent + 308)

def floatOf (c : Cursor) (negative : Bool) (significand : Nat) (exponent : Int) : Read Number :=
  let f := Float.ofBits (Decimal.nearest significand 0)
  match scale (exponent.natAbs / 308 + 1) f exponent with
  | none => c.fail .numberOutOfRange
  | some g => .ok (.float (Decimal.signed negative g.toBits), c)

def maxExponent : Nat := Nat.pow 2 31 - 1

/-- The exponent of a number, from its mark on. -/
def exponentPart (c : Cursor) (negative : Bool) (value : Nat) (exponent : Int) : Read Number :=
  let c := c.next
  let (down, c) := match c.rest with
    | '+' :: _ => (false, c.next)
    | '-' :: _ => (true, c.next)
    | _ => (false, c)
  match c.rest with
  | [] => c.fail .eofInValue
  | x :: _ =>
    if !Decimal.isDigit x then c.failAhead .invalidNumber
    else
      let ds := c.rest.takeWhile Decimal.isDigit
      let (e, taken, left) := significand maxExponent 0 0 ds
      if left ≠ [] then
        if value ≠ 0 ∧ !down then (c.advance (taken + 1)).fail .numberOutOfRange
        else .ok (.float (Decimal.signed negative 0), c.past ds)
      else floatOf (c.past ds) negative value (exponent + if down then -(e : Int) else e)

def isExponentMark (c : Char) : Bool := c = 'e' || c = 'E'

/-- The fraction of a number, from its point on. -/
def fractionPart (c : Cursor) (negative : Bool) (value : Nat) (exponent : Int) : Read Number :=
  let c := c.next
  let ds := c.rest.takeWhile Decimal.isDigit
  let (value, taken, _) := significand maxUnsigned value 0 ds
  if ds = [] then c.failAhead (if c.eof then .eofInValue else .invalidNumber)
  else
    let c := c.past ds
    let exponent := exponent - taken
    match c.rest with
    | x :: _ =>
      if isExponentMark x then c.exponentPart negative value exponent
      else floatOf c negative value exponent
    | [] => floatOf c negative value exponent

/-- A number, from its first digit on. -/
def number (c : Cursor) (negative : Bool) : Read Number :=
  match c.rest with
  | [] => c.fail .eofInValue
  | x :: xs =>
    if !Decimal.isDigit x then c.failAhead .invalidNumber
    else if x = '0' ∧ (xs.head?.any Decimal.isDigit) then c.next.failAhead .invalidNumber
    else
      let ds := c.rest.takeWhile Decimal.isDigit
      let (value, _, left) := significand maxUnsigned 0 0 ds
      let c := c.past ds
      let exponent : Int := left.length
      match c.rest with
      | '.' :: _ => c.fractionPart negative value exponent
      | y :: _ =>
        if isExponentMark y then c.exponentPart negative value exponent
        else finish c value left
      | [] => finish c value left
where
  finish (c : Cursor) (value : Nat) (left : List Char) : Read Number :=
    if left ≠ [] then floatOf c negative value left.length
    else if !negative then .ok (.int value, c)
    else if value = 0 ∨ Nat.pow 2 63 < value then floatOf c true value 0
    else .ok (.int (-value), c)

/-! Strings -/

def hexDigit? (c : Char) : Option Nat :=
  if '0' ≤ c ∧ c ≤ '9' then some (c.toNat - 48)
  else if 'a' ≤ c ∧ c ≤ 'f' then some (c.toNat - 87)
  else if 'A' ≤ c ∧ c ≤ 'F' then some (c.toNat - 55)
  else none

/-- The place a number of bytes ahead, none past the end. -/
def bytesAhead : List Char → Place → Nat → Option Place
  | _, p, 0 => some p
  | [], _, _ + 1 => none
  | x :: xs, p, n + 1 =>
    if x.utf8Size ≤ n + 1 then bytesAhead xs (p.past x) (n + 1 - x.utf8Size)
    else some ⟨p.line, p.column + (n + 1)⟩
termination_by xs => xs.length

def toEnd (c : Cursor) : Cursor := c.past c.rest

/-- The four hexadecimal digits of an escape. -/
def hexEscape (c : Cursor) : Read Nat :=
  match bytesAhead c.rest c.place 4 with
  | none => c.toEnd.fail .eofInString
  | some place =>
    match (c.rest.take 4).mapM hexDigit? with
    | some ds => .ok (ds.foldl (fun n d => 16 * n + d) 0, c.advance 4)
    | none => .error ⟨.invalidEscape, place⟩

/-- The character of a `\u` escape, from its digits on. A leading surrogate takes the escape after
it along. -/
def unicodeEscape (c : Cursor) : Except ReadError (Char × Cursor) := do
  let (n, c) ← c.hexEscape
  if 0xDC00 ≤ n ∧ n ≤ 0xDFFF then c.fail .loneSurrogate
  else if 0xD800 ≤ n ∧ n ≤ 0xDBFF then
    let c ← mark c '\\'
    let c ← mark c 'u'
    let (m, c) ← c.hexEscape
    if m < 0xDC00 ∨ 0xDFFF < m then c.fail .loneSurrogate
    else .ok (Char.ofNat (0x10000 + (n - 0xD800) * 0x400 + (m - 0xDC00)), c)
  else .ok (Char.ofNat n, c)
where
  mark (c : Cursor) (x : Char) : Except ReadError Cursor :=
    match c.rest with
    | [] => c.fail .eofInString
    | y :: _ => if x = y then .ok c.next else c.failAhead .endOfEscape

/-- The character of an escape, from the one after the backslash on. -/
def escape (c : Cursor) : Read Char :=
  match c.rest with
  | [] => c.fail .eofInString
  | x :: _ =>
    if x = '"' ∨ x = '\\' ∨ x = '/' then .ok (x, c.next)
    else if x = 'b' then .ok ('\x08', c.next)
    else if x = 'f' then .ok ('\x0c', c.next)
    else if x = 'n' then .ok ('\n', c.next)
    else if x = 'r' then .ok ('\r', c.next)
    else if x = 't' then .ok ('\t', c.next)
    else if x = 'u' then c.next.unicodeEscape
    else c.failAhead .invalidEscape

def stringBody : Nat → Cursor → List Char → Read String
  | 0, c, _ => c.fail .eofInString
  | fuel + 1, c, taken =>
    match c.rest with
    | [] => c.fail .eofInString
    | x :: _ =>
      if x = '"' then .ok (String.ofList taken.reverse, c.next)
      else if x = '\\' then
        match c.next.escape with
        | .ok (y, c) => stringBody fuel c (y :: taken)
        | .error e => .error e
      else if x.toNat < 32 then c.failAhead .controlCharacter
      else stringBody fuel c.next (x :: taken)

/-- A string, from the character after its opening quote on. -/
def string (c : Cursor) : Read String := stringBody (c.rest.length + 1) c []

end Cursor

end RpcContract.Json
