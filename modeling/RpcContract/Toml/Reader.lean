import RpcContract.Toml.Scalar
import RpcContract.Toml.Table
import RpcContract.Toml.Text

/-!
Reading the text of a TOML document. A document is a sequence of lines, each a pair of a key and a
value, a header or blank; a value may go on over several lines. Keys and values come with the rest
of the text.
-/

namespace RpcContract.Toml

/-! Keys -/

def isKeyChar (c : Char) : Bool := c.isAlphanum || c = '-' || c = '_'

def simpleKey? (cs : List Char) : Option (String × List Char) :=
  match shortString? cs with
  | some (text, rest) => some (String.ofList text, rest)
  | none =>
    let name := cs.takeWhile isKeyChar
    if name = [] then none else some (String.ofList name, cs.dropWhile isKeyChar)

/-- The names of a key, parted by points. -/
def keyFrom : Nat → List Char → Option (List String × List Char)
  | 0, _ => none
  | fuel + 1, cs => do
    let (name, rest) ← simpleKey? (skipBlanks cs)
    match skipBlanks rest with
    | '.' :: rest => do
      let (names, rest) ← keyFrom fuel rest
      some (name :: names, rest)
    | rest => some ([name], rest)

def key? (cs : List Char) : Option (List String × List Char) := keyFrom (cs.length + 1) cs

/-! Values -/

/-- Passes over blanks, comments and line breaks. -/
def skipLines : Nat → List Char → Option (List Char)
  | 0, cs => some cs
  | fuel + 1, cs =>
    match skipBlanks cs with
    | '#' :: rest => do skipLines fuel (← lineBreak? (comment ('#' :: rest)))
    | '\n' :: rest => skipLines fuel rest
    | '\r' :: rest => do skipLines fuel (← lineBreak? ('\r' :: rest))
    | cs => some cs

/-- How deep arrays and tables may be nested. -/
def maxDepth : Nat := 79

mutual

def valueFrom (depth : Nat) : Nat → List Char → Option (Value × List Char)
  | 0, _ => none
  | fuel + 1, cs =>
    match cs with
    | [] => none
    | c :: rest =>
      if c = '"' ∨ c = '\'' then (string? cs).map fun (s, rest) => (.text (String.ofList s), rest)
      else if c = '[' then
        if maxDepth ≤ depth then none
        else (itemsFrom (depth + 1) fuel rest).map fun (items, rest) => (.array items, rest)
      else if c = '{' then
        if maxDepth ≤ depth then none
        else
          match skipBlanks rest with
          | '}' :: rest => some (.table [], rest)
          | rest => do
            let (pairs, rest) ← pairsFrom (depth + 1) fuel rest
            let entries ← (Entries.addPairs pairs []).map Entries.close
            some (.table entries, rest)
      else scalar? cs

/-- The items of an array after its bracket or a comma. -/
def itemsFrom (depth : Nat) : Nat → List Char → Option (List Value × List Char)
  | 0, _ => none
  | fuel + 1, cs => do
    match ← skipLines (cs.length + 1) cs with
    | ']' :: rest => some ([], rest)
    | cs => do
      let (item, rest) ← valueFrom depth fuel cs
      match ← skipLines (rest.length + 1) rest with
      | ',' :: rest => do
        let (items, rest) ← itemsFrom depth fuel rest
        some (item :: items, rest)
      | ']' :: rest => some ([item], rest)
      | _ => none

/-- The pairs of a table in braces, up to the closing one. -/
def pairsFrom (depth : Nat) : Nat → List Char →
    Option (List (List String × Value) × List Char)
  | 0, _ => none
  | fuel + 1, cs => do
    let (key, rest) ← key? cs
    match rest with
    | '=' :: rest => do
      let (value, rest) ← valueFrom depth fuel (skipBlanks rest)
      match skipBlanks rest with
      | ',' :: rest => do
        let (pairs, rest) ← pairsFrom depth fuel rest
        some ((key, value) :: pairs, rest)
      | '}' :: rest => some ([(key, value)], rest)
      | _ => none
    | _ => none

end

/-! Lines -/

def header? (cs : List Char) : Option (Line × List Char) :=
  match cs with
  | '[' :: '[' :: rest => do
    match ← key? rest with
    | (key, ']' :: ']' :: rest) => some (.arrayHeader key, rest)
    | _ => none
  | '[' :: rest => do
    match ← key? rest with
    | (key, ']' :: rest) => some (.header key, rest)
    | _ => none
  | _ => none

def pair? (cs : List Char) : Option (Line × List Char) := do
  match ← key? cs with
  | (key, '=' :: rest) => do
    let rest := skipBlanks rest
    let (value, rest) ← valueFrom 0 (rest.length + 1) rest
    some (.pair key value, rest)
  | _ => none

def line? (cs : List Char) : Option (Line × List Char) :=
  if cs.head? = some '[' then header? cs else pair? cs

def linesFrom : Nat → List Char → Option (List Line)
  | 0, _ => none
  | fuel + 1, cs =>
    match skipBlanks cs with
    | [] => some []
    | cs =>
      match lineEnd? cs with
      | some rest => linesFrom fuel rest
      | none => do
        let (line, rest) ← line? cs
        let lines ← linesFrom fuel (← lineEnd? rest)
        some (line :: lines)

/-- The entries of a document; none if it is malformed. A mark of the byte order at its start is no
part of it. -/
def read? (text : String) : Option (List (String × Value)) := do
  let cs := match text.toList with
    | '\uFEFF' :: cs => cs
    | cs => cs
  Entries.ofLines? (← linesFrom (cs.length + 1) cs)

end RpcContract.Toml
