import RpcContract.Json.Cursor
import RpcContract.Yaml.Cursor

/-!
The texts of scalars: plain, in quotes, and in blocks. Inside the first two a run of blanks and
breaks is a `Gap`; how its lines join is `Gap.text`.
-/

namespace RpcContract.Yaml

/-- Blanks and breaks between two parts of a scalar. `first` is the break that ends the line of
the first part; it is missing if that break is escaped. -/
structure Gap where
  blanks : List Char
  broken : Bool
  first : List Char
  others : List Char

namespace Gap

def empty : Gap := ⟨[], false, [], []⟩

/-- The gap after an escaped break. -/
def escaped : Gap := ⟨[], true, [], []⟩

def push (g : Gap) (c : Char) : Gap :=
  if isBlank c then
    if g.broken then g else ⟨g.blanks ++ [c], false, [], []⟩
  else if g.broken then ⟨[], true, g.first, g.others ++ [c]⟩
  else ⟨[], true, [c], []⟩

/-- A single break becomes a space, of several the first is dropped; the line and paragraph
separators are kept. -/
def text (g : Gap) : List Char :=
  if g.broken then
    if g.first = ['\n'] then
      if g.others = [] then [' '] else g.others
    else g.first ++ g.others
  else g.blanks

end Gap

def isFlowIndicator (c : Char) : Bool :=
  c = ',' || c = '[' || c = ']' || c = '{' || c = '}'

/-- A plain scalar and whether a break follows it. The lines after the first have to be indented
by `indent` columns, unless a flow collection is open. -/
def plainFrom (flow : Bool) (indent : Int) (text : List Char) (gap : Gap) (c : Cursor) :
    Nat → Option ((List Char × Bool) × Cursor)
  | 0 => none
  | fuel + 1 =>
    let stop := some ((text, gap.broken), c)
    match c.peek with
    | none => stop
    | some x =>
      if isBlank x || isBreak x then
        if x = '\t' ∧ gap.broken ∧ (c.column : Int) < indent then none
        else plainFrom flow indent text (gap.push x) c.next fuel
      else if gap.broken ∧ !flow ∧ (c.column : Int) < indent then stop
      else if c.atDocumentMarker then stop
      else if x = '#' ∧ (gap.broken ∨ gap.blanks ≠ []) then stop
      else if flow ∧ x = ':' ∧ (c.peekAt 1).any (fun y => isFlowIndicator y || y = '?') then none
      else if (x = ':' ∧ c.gapAt 1) ∨ (flow ∧ isFlowIndicator x) then stop
      else plainFrom flow indent (text ++ gap.text ++ [x]) .empty c.next fuel

def plain (flow : Bool) (indent : Int) (c : Cursor) : Option ((List Char × Bool) × Cursor) :=
  plainFrom flow indent [] .empty c (c.rest.length + 1)

/-- The characters that a backslash and one more character stand for. -/
def shortEscape? : Char → Option Char
  | '0' => some '\x00'
  | 'a' => some '\x07'
  | 'b' => some '\x08'
  | 't' => some '\t'
  | '\t' => some '\t'
  | 'n' => some '\n'
  | 'v' => some '\x0B'
  | 'f' => some '\x0C'
  | 'r' => some '\r'
  | 'e' => some '\x1B'
  | ' ' => some ' '
  | '"' => some '"'
  | '/' => some '/'
  | '\\' => some '\\'
  | 'N' => some '\x85'
  | '_' => some '\xA0'
  | 'L' => some '\u2028'
  | 'P' => some '\u2029'
  | _ => none

/-- The number of hexadecimal digits after a letter that announces a code point. -/
def codeLength? : Char → Option Nat
  | 'x' => some 2
  | 'u' => some 4
  | 'U' => some 8
  | _ => none

def hexValue? (digits : List Char) : Option Nat :=
  digits.foldl (fun n d => n.bind fun n => (Json.Cursor.hexDigit? d).map (16 * n + ·)) (some 0)

/-- The character that an escape denotes, given what follows the backslash, and how many
characters that takes. -/
def escape? : List Char → Option (Char × Nat)
  | [] => none
  | x :: rest =>
    match codeLength? x with
    | none => (shortEscape? x).map (·, 1)
    | some n =>
      let digits := rest.take n
      if digits.length = n then do
        let code ← hexValue? digits
        if code.isValidChar then some (Char.ofNat code, n + 1) else none
      else none

/-- A quoted scalar, from after its first quote. -/
def quotedFrom (quote : Char) (text : List Char) (gap : Gap) (c : Cursor) :
    Nat → Option (List Char × Cursor)
  | 0 => none
  | fuel + 1 =>
    match c.peek with
    | none => none
    | some x =>
      if isBlank x || isBreak x then quotedFrom quote text (gap.push x) c.next fuel
      else if c.atDocumentMarker then none
      else
        let text := text ++ gap.text
        if x = quote then
          if quote = '\'' ∧ c.peekAt 1 = some '\'' then
            quotedFrom quote (text ++ [x]) .empty (c.skip 2) fuel
          else some (text, c.next)
        else if quote = '"' ∧ x = '\\' then
          if (c.peekAt 1).any isBreak then quotedFrom quote text .escaped (c.skip 2) fuel
          else do
            let (y, n) ← escape? c.next.rest
            quotedFrom quote (text ++ [y]) .empty (c.next.skip n) fuel
        else quotedFrom quote (text ++ [x]) .empty c.next fuel

def quoted (quote : Char) (c : Cursor) : Option (List Char × Cursor) :=
  quotedFrom quote [] .empty c.next (c.rest.length + 1)

/-! Blocks -/

inductive Chomp where
  | strip
  | clip
  | keep
deriving DecidableEq

structure BlockHeader where
  chomp : Chomp
  increment : Option Nat

def chompOf? : Option Char → Option Chomp
  | some '+' => some .keep
  | some '-' => some .strip
  | _ => none

def digitOf? : Option Char → Option Nat
  | some x => if '0' ≤ x ∧ x ≤ '9' then some (x.toNat - '0'.toNat) else none
  | none => none

/-- The indicators after `|` or `>`, in either order. -/
def blockHeader (c : Cursor) : Option (BlockHeader × Cursor) :=
  let (chomp, increment, c) :=
    match chompOf? c.peek with
    | some chomp =>
      match digitOf? c.next.peek with
      | some n => (chomp, some n, c.skip 2)
      | none => (chomp, none, c.next)
    | none =>
      match digitOf? c.peek with
      | some n =>
        match chompOf? c.next.peek with
        | some chomp => (chomp, some n, c.skip 2)
        | none => (.clip, some n, c.next)
      | none => (.clip, none, c)
  if increment = some 0 then none else some (⟨chomp, increment⟩, c)

/-- The rest of a line that may hold blanks and a comment only. -/
def blankLine (c : Cursor) : Option Cursor :=
  let c := c.skipWhile isBlank
  let c := if c.isAt '#' then c.skipWhile (!isBreak ·) else c
  if c.lineEndsAt 0 then some c.next else none

/-- The breaks of empty lines, and the column of the longest run of spaces before them or before
the first line that is not empty. A known `indent` bounds the spaces. -/
def emptyLines (indent : Option Nat) (breaks : List Char) (widest : Nat) (c : Cursor) :
    Nat → Option ((List Char × Nat) × Cursor)
  | 0 => none
  | fuel + 1 =>
    let inside := indent.all (c.column < ·)
    match c.peek with
    | none => some ((breaks, max widest c.column), c)
    | some x =>
      if inside ∧ x = ' ' then emptyLines indent breaks widest c.next fuel
      else if inside ∧ x = '\t' then none
      else if isBreak x then emptyLines indent (breaks ++ [x]) (max widest c.column) c.next fuel
      else some ((breaks, max widest c.column), c)

/-- The lines of a block. `last` is the break that ended the line before and `breaks` those of the
empty lines since; `spaced` says that the line before started with a blank. -/
def blockLines (folded : Bool) (indent : Nat) (text last breaks : List Char) (spaced : Bool)
    (c : Cursor) : Nat → Option ((List Char × List Char × List Char) × Cursor)
  | 0 => none
  | fuel + 1 =>
    match c.peek with
    | none => some ((text, last, breaks), c)
    | some x =>
      if c.column = indent then
        let blank := isBlank x
        let join :=
          if folded ∧ last = ['\n'] ∧ !spaced ∧ !blank then
            if breaks = [] then [' '] else breaks
          else last ++ breaks
        let line := c.takeWhile (!isBreak ·)
        let c := c.skipWhile (!isBreak ·)
        let last := c.peek.toList
        do
          let ((breaks, _), c) ← emptyLines (some indent) [] 0 c.next fuel
          blockLines folded indent (text ++ join ++ line) last breaks blank c fuel
      else some ((text, last, breaks), c)

/-- A block scalar, from its indicator on, inside a collection indented by `outer` columns. -/
def block (outer : Int) (c : Cursor) : Option (List Char × Cursor) := do
  let folded := c.isAt '>'
  let fuel := c.rest.length + 1
  let (header, c) ← blockHeader c.next
  let c ← blankLine c
  let known := header.increment.map fun n => outer.toNat + n
  let ((breaks, widest), c) ← emptyLines known [] 0 c fuel
  let indent := known.getD (max widest (max (outer + 1).toNat 1))
  let ((text, last, breaks), c) ← blockLines folded indent [] [] breaks false c fuel
  let tail := match header.chomp with
    | .strip => []
    | .clip => last
    | .keep => last ++ breaks
  some (text ++ tail, c)

end RpcContract.Yaml
