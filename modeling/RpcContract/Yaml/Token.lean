import RpcContract.Yaml.Property
import RpcContract.Yaml.Scalar

/-!
The tokens of a YAML stream. A plain or quoted scalar, a tag or a collection in brackets may turn
out to be a key only when `:` follows; until then it is a `PendingKey`, and the tokens that make
it a key are put before it afterwards.
-/

namespace RpcContract.Yaml

inductive Token where
  | directive (d : Directive)
  | documentStart
  | documentEnd
  | blockSequence
  | blockMapping
  | blockEnd
  | flowSequence
  | flowSequenceEnd
  | flowMapping
  | flowMappingEnd
  | blockEntry
  | flowEntry
  | key
  | value
  | alias (name : String)
  | anchor (name : String)
  | tag (t : Tag)
  | scalar (text : String) (plain : Bool)
deriving DecidableEq

/-- Where a key may have started, after how many tokens, and whether it has to be one: text at the
indentation of a block mapping is a key. -/
structure PendingKey where
  required : Bool
  position : Nat
  start : Cursor

/-- `tokens` are the latest first; `indents` are the columns of the open block collections and
`outerKeys` the pending keys around the open flow collections, innermost first. -/
structure Lexer where
  cursor : Cursor
  tokens : List Token
  indents : List Nat
  key : Option PendingKey
  outerKeys : List (Option PendingKey)
  keyAllowed : Bool

namespace Lexer

def inFlow (l : Lexer) : Bool := !l.outerKeys.isEmpty

def indent (l : Lexer) : Int := (l.indents.head?.map Int.ofNat).getD (-1)

def emit (t : Token) (l : Lexer) : Lexer := { l with tokens := t :: l.tokens }

/-- Puts a token after the first `position` tokens. -/
def emitAt (position : Nat) (t : Token) (l : Lexer) : Lexer :=
  let later := l.tokens.length - position
  { l with tokens := l.tokens.take later ++ t :: l.tokens.drop later }

def moveTo (c : Cursor) (l : Lexer) : Lexer := { l with cursor := c }

def allowKey (allowed : Bool) (l : Lexer) : Lexer := { l with keyAllowed := allowed }

/-- Ends the block collections that are indented by more than `column`. -/
def unroll (column : Int) (l : Lexer) : Lexer :=
  if l.inFlow then l
  else
    let closed := l.indents.takeWhile fun n : Nat => column < (n : Int)
    { l with
      tokens := closed.map (fun _ => .blockEnd) ++ l.tokens
      indents := l.indents.drop closed.length }

/-- Starts a block collection at `column` if it is indented by more than the open one. -/
def roll (column position : Nat) (t : Token) (l : Lexer) : Lexer :=
  if l.inFlow ∨ ¬ l.indent < (column : Int) then l
  else { l.emitAt position t with indents := column :: l.indents }

def rollHere (t : Token) (l : Lexer) : Lexer := l.roll l.cursor.column l.tokens.length t

def dropKey (l : Lexer) : Option Lexer :=
  if l.key.any (·.required) then none else some { l with key := none }

/-- What comes next may be a key. -/
def saveKey (l : Lexer) : Option Lexer :=
  if l.keyAllowed then do
    let required := !l.inFlow && l.indent = (l.cursor.column : Int)
    let l ← l.dropKey
    some { l with key := some ⟨required, l.tokens.length, l.cursor⟩ }
  else some l

/-- A key ends on its line and within 1024 characters. -/
def PendingKey.isStale (k : PendingKey) (c : Cursor) : Bool :=
  k.start.line < c.line || k.start.index + 1024 < c.index

def dropStaleKeys (l : Lexer) : Option Lexer :=
  let stale (k : PendingKey) := PendingKey.isStale k l.cursor
  if (l.key :: l.outerKeys).any (·.any fun k => stale k && k.required) then none
  else
    let fresh (k : Option PendingKey) := k.filter (!stale ·)
    some { l with key := fresh l.key, outerKeys := l.outerKeys.map fresh }

/-- Goes on to the next token over blanks, comments and breaks. A tab is no indentation. -/
def skipGap (l : Lexer) : Nat → Lexer
  | 0 => l
  | fuel + 1 =>
    let tabs := l.inFlow || !l.keyAllowed
    let c := l.cursor.skipWhile fun x => x = ' ' || (tabs && x = '\t')
    let c := if c.isAt '#' then c.skipWhile (!isBreak ·) else c
    if c.peek.any isBreak then
      skipGap ((l.moveTo c.next).allowKey (l.keyAllowed || !l.inFlow)) fuel
    else l.moveTo c

def mark (n : Nat) (t : Token) (l : Lexer) : Lexer := (l.moveTo (l.cursor.skip n)).emit t

def flowStart (t : Token) (l : Lexer) : Option Lexer := do
  let l ← l.saveKey
  some ({ l with key := none, outerKeys := l.key :: l.outerKeys }.allowKey true |>.mark 1 t)

def flowEnd (t : Token) (l : Lexer) : Option Lexer := do
  let l ← l.dropKey
  let l := match l.outerKeys with
    | key :: outerKeys => { l with key := key, outerKeys := outerKeys }
    | [] => l
  some (l.allowKey false |>.mark 1 t)

/-- Starts a line of a block collection, where the line may start one. -/
def blockLine (collection : Token) (l : Lexer) : Option Lexer :=
  if l.inFlow then some l
  else if l.keyAllowed then some (l.rollHere collection)
  else none

def entry (l : Lexer) : Option Lexer := do
  let l ← l.blockLine .blockSequence
  some ((← l.dropKey).allowKey true |>.mark 1 .blockEntry)

def explicitKey (l : Lexer) : Option Lexer := do
  let l ← l.blockLine .blockMapping
  some ((← l.dropKey).allowKey !l.inFlow |>.mark 1 .key)

def value (l : Lexer) : Option Lexer :=
  match l.key with
  | some k =>
    let l := (l.emitAt k.position .key).roll k.start.column k.position .blockMapping
    some ({ l with key := none }.allowKey false |>.mark 1 .value)
  | none => do
    let l ← l.blockLine .blockMapping
    some (l.allowKey !l.inFlow |>.mark 1 .value)

/-- A token that may be a key or stand before one. -/
def keyed (scan : Cursor → Option (Token × Cursor)) (l : Lexer) : Option Lexer := do
  let l ← l.saveKey
  let (t, c) ← scan l.cursor
  some (l.allowKey false |>.moveTo c |>.emit t)

def quotedToken (quote : Char) (c : Cursor) : Option (Token × Cursor) := do
  let (text, c) ← quoted quote c
  some (.scalar (String.ofList text) false, c)

def plainScalar (l : Lexer) : Option Lexer := do
  let l ← l.saveKey
  let ((text, broken), c) ← plain l.inFlow (l.indent + 1) l.cursor
  some (l.allowKey broken |>.moveTo c |>.emit (.scalar (String.ofList text) true))

def blockScalar (l : Lexer) : Option Lexer := do
  let l ← l.dropKey
  let (text, c) ← block l.indent l.cursor
  some (l.allowKey true |>.moveTo c |>.emit (.scalar (String.ofList text) false))

def documentMark (t : Token) (l : Lexer) : Option Lexer := do
  some ((← (l.unroll (-1)).dropKey).allowKey false |>.mark 3 t)

def directiveLine (l : Lexer) : Option Lexer := do
  let l ← (l.unroll (-1)).dropKey
  let (d, c) ← directive l.cursor
  some (l.allowKey false |>.moveTo c |>.emit (.directive d))

def indicators : List Char := "-?:,[]\x7b\x7d#&*!|>'\"%@`".toList

/-- A plain scalar starts with no indicator, but `-`, and outside of flow collections `?` and `:`,
may start one if no blank follows. -/
def startsPlain (l : Lexer) (x : Char) : Bool :=
  !indicators.contains x || (x = '-' && !(l.cursor.peekAt 1).any isBlank) ||
    (!l.inFlow && (x = '?' || x = ':') && !l.cursor.gapAt 1)

/-- Reads the token that starts with `x`. -/
def token (x : Char) (l : Lexer) : Option Lexer :=
  let c := l.cursor
  let indicates := l.inFlow || c.gapAt 1
  if c.column = 0 ∧ x = '%' then l.directiveLine
  else if c.isMarker '-' then l.documentMark .documentStart
  else if c.isMarker '.' then l.documentMark .documentEnd
  else if x = '[' then l.flowStart .flowSequence
  else if x = '{' then l.flowStart .flowMapping
  else if x = ']' then l.flowEnd .flowSequenceEnd
  else if x = '}' then l.flowEnd .flowMappingEnd
  else if x = ',' then do some ((← l.dropKey).allowKey true |>.mark 1 .flowEntry)
  else if x = '-' ∧ c.gapAt 1 then l.entry
  else if x = '?' ∧ indicates then l.explicitKey
  else if x = ':' ∧ indicates then l.value
  else if x = '*' then l.keyed fun c => (anchor c).map fun (name, c) => (.alias name, c)
  else if x = '&' then l.keyed fun c => (anchor c).map fun (name, c) => (.anchor name, c)
  else if x = '!' then l.keyed fun c => (tag l.inFlow c).map fun (t, c) => (.tag t, c)
  else if (x = '|' ∨ x = '>') ∧ !l.inFlow then l.blockScalar
  else if x = '\'' ∨ x = '"' then l.keyed (quotedToken x)
  else if !isBlank x && l.startsPlain x then l.plainScalar
  else none

def run (l : Lexer) : Nat → Option (List Token)
  | 0 => none
  | fuel + 1 => do
    let l ← (l.skipGap (l.cursor.rest.length + 1)).dropStaleKeys
    let l := l.unroll l.cursor.column
    match l.cursor.peek with
    | none => do
      let l ← (l.unroll (-1)).dropKey
      some l.tokens.reverse
    | some x => run (← l.token x) fuel

end Lexer

/-- The tokens of a stream; none if it is malformed. -/
def Token.ofText? (text : String) : Option (List Token) := do
  let cs ← normalized? text
  Lexer.run ⟨.ofList cs, [], [], none, [], true⟩ (cs.length + 1)

end RpcContract.Yaml
