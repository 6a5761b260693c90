import RpcContract.Json.Cursor
import RpcContract.Toml.Value

/-!
The four ways to write a string: between quotes that allow escapes or quotes that do not, on one
line or, between three quotes, as a block of lines.
-/

namespace RpcContract.Toml

/-! Reading -/

/-- Where the reading of a string with escapes stands: in its text, after a backslash, inside a
code point, between a backslash and the end of its line, or in the blanks after that. -/
inductive Mode where
  | text
  | slash
  | code (left value : Nat)
  | lineTail
  | trim
deriving DecidableEq

def shortEscape? : Char → Option Char
  | 'b' => some '\x08'
  | 't' => some '\t'
  | 'n' => some '\n'
  | 'f' => some '\x0C'
  | 'r' => some '\r'
  | '"' => some '"'
  | '\\' => some '\\'
  | _ => none

def codeLength? : Char → Option Nat
  | 'u' => some 4
  | 'U' => some 8
  | _ => none

/-- After the three quotes that end a block up to two more belong to its text. -/
def afterBlock (quote : Char) : List Char → List Char × List Char
  | a :: b :: rest =>
    if a = quote ∧ b = quote then ([a, b], rest)
    else if a = quote then ([a], b :: rest)
    else ([], a :: b :: rest)
  | [a] => if a = quote then ([a], []) else ([], [a])
  | [] => ([], [])

/-- Puts a character before the text that has been read. -/
def before (c : Char) (read : Option (List Char × List Char)) :
    Option (List Char × List Char) :=
  read.map fun (text, rest) => (c :: text, rest)

/-- A string with escapes, from after its opening quotes. -/
def escapedFrom (block : Bool) (mode : Mode) : List Char → Option (List Char × List Char)
  | [] => none
  | c :: rest =>
    match mode with
    | .slash =>
      match shortEscape? c, codeLength? c with
      | some d, _ => before d (escapedFrom block .text rest)
      | none, some n => escapedFrom block (.code n 0) rest
      | none, none =>
        if block ∧ isBlank c then escapedFrom block .lineTail rest
        else if block ∧ c = '\n' then escapedFrom block .trim rest
        else if block ∧ c = '\r' ∧ rest.head? = some '\n' then escapedFrom block .lineTail rest
        else none
    | .code left value =>
      match Json.Cursor.hexDigit? c with
      | none => none
      | some d =>
        let value := 16 * value + d
        if 1 < left then escapedFrom block (.code (left - 1) value) rest
        else if value.isValidChar then before (Char.ofNat value) (escapedFrom block .text rest)
        else none
    | .lineTail =>
      if isBlank c then escapedFrom block .lineTail rest
      else if c = '\n' then escapedFrom block .trim rest
      else if c = '\r' ∧ rest.head? = some '\n' then escapedFrom block .lineTail rest
      else none
    | mode =>
      if mode = .trim ∧ (isBlank c ∨ c = '\n' ∨ (c = '\r' ∧ rest.head? = some '\n')) then
        escapedFrom block .trim rest
      else if c = '"' then
        if !block then some ([], rest)
        else if rest.take 2 = ['"', '"'] then some (afterBlock '"' (rest.drop 2))
        else before c (escapedFrom block .text rest)
      else if c = '\\' then escapedFrom block .slash rest
      else if block ∧ c = '\n' then before c (escapedFrom block .text rest)
      else if block ∧ c = '\r' ∧ rest.head? = some '\n' then escapedFrom block .text rest
      else if isControl c then none
      else before c (escapedFrom block .text rest)

/-- A string without escapes, from after its opening quotes. -/
def literalFrom (block : Bool) : List Char → Option (List Char × List Char)
  | [] => none
  | c :: rest =>
    if c = '\'' then
      if !block then some ([], rest)
      else if rest.take 2 = ['\'', '\''] then some (afterBlock '\'' (rest.drop 2))
      else before c (literalFrom block rest)
    else if block ∧ c = '\n' then before c (literalFrom block rest)
    else if block ∧ c = '\r' ∧ rest.head? = some '\n' then literalFrom block rest
    else if isControl c then none
    else before c (literalFrom block rest)

/-- A block may start with a line break that is not part of its text. -/
def skipBreak (cs : List Char) : List Char := (lineBreak? cs).getD cs

def shortString? : List Char → Option (List Char × List Char)
  | '"' :: rest => escapedFrom false .text rest
  | '\'' :: rest => literalFrom false rest
  | _ => none

def string? : List Char → Option (List Char × List Char)
  | '"' :: '"' :: '"' :: rest => escapedFrom true .text (skipBreak rest)
  | '\'' :: '\'' :: '\'' :: rest => literalFrom true (skipBreak rest)
  | cs => shortString? cs

/-! Writing -/

inductive Style where
  | basic
  | literal
  | basicBlock
  | literalBlock
deriving DecidableEq, Repr

/-- The length of the longest run of a character, where `now` of them come before the text. -/
def longestRun (x : Char) (now : Nat) : List Char → Nat
  | [] => now
  | c :: cs => if c = x then longestRun x (now + 1) cs else max now (longestRun x 0 cs)

/-- A text is written without escapes where it can be, on one line where it can be, and rather
between double quotes. -/
def styleOf (cs : List Char) : Style :=
  let codes := cs.any fun c => isControl c && c != '\n'
  let slash := cs.contains '\\'
  let lines := cs.contains '\n'
  let single := longestRun '\'' 0 cs
  let double := longestRun '"' 0 cs
  if !codes && !slash && double = 0 && !lines then .basic
  else if !codes && single = 0 && !lines then .literal
  else if !codes && !slash && double ≤ 2 then .basicBlock
  else if !codes && single ≤ 2 then .literalBlock
  else if lines then .basicBlock
  else .basic

def hexUpper (n : Nat) : Char := "0123456789ABCDEF".toList.getD n '0'

def codeEscape (c : Char) : List Char :=
  let n := c.toNat
  ['\\', 'u', '0', '0', hexUpper (n / 16), hexUpper (n % 16)]

/-- The text of a string with escapes. A block may hold two quotes in a row; `quotes` says how many
were just written. -/
def escaped (block : Bool) (quotes : Nat) : List Char → List Char
  | [] => []
  | c :: cs =>
    if c = '"' then
      if block ∧ quotes < 2 then c :: escaped block (quotes + 1) cs
      else '\\' :: c :: escaped block 0 cs
    else if c = '\n' then
      if block then c :: escaped block 0 cs else '\\' :: 'n' :: escaped block 0 cs
    else if c = '\x08' then '\\' :: 'b' :: escaped block 0 cs
    else if c = '\t' then '\\' :: 't' :: escaped block 0 cs
    else if c = '\x0C' then '\\' :: 'f' :: escaped block 0 cs
    else if c = '\r' then '\\' :: 'r' :: escaped block 0 cs
    else if c = '\\' then '\\' :: c :: escaped block 0 cs
    else if isControl c then codeEscape c ++ escaped block 0 cs
    else c :: escaped block 0 cs

/-- A block of several lines starts on a line of its own. -/
def blockStart (cs : List Char) : List Char := if cs.contains '\n' then ['\n'] else []

def quotedText (cs : List Char) : List Char :=
  match styleOf cs with
  | .basic => '"' :: escaped false 0 cs ++ ['"']
  | .literal => '\'' :: cs ++ ['\'']
  | .basicBlock => ['"', '"', '"'] ++ blockStart cs ++ escaped true 0 cs ++ ['"', '"', '"']
  | .literalBlock => ['\'', '\'', '\''] ++ blockStart cs ++ cs ++ ['\'', '\'', '\'']

end RpcContract.Toml
