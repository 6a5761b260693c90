import RpcContract.Json.Cursor
import RpcContract.Text.Blank

/-!
Files of sections: lines `key = value` under headings in brackets, every value a text. What stands
before the first heading belongs to no section.
-/

namespace RpcContract.Settings.Ini

/-- The keys below one heading, or before the first, with their texts. -/
structure Section where
  heading : Option String
  entries : List (String × String)
deriving DecidableEq, Repr

def isBreak (c : Char) : Bool := c = '\n' || c = '\r'

def shortEscape (c : Char) : Char :=
  match c with
  | '0' => '\x00'
  | 'a' => '\x07'
  | 'b' => '\x08'
  | 't' => '\t'
  | 'r' => '\r'
  | 'n' => '\n'
  | c => c

/-- The character of four hexadecimal digits. -/
def codePoint? (digits : List Char) : Option Char := do
  let n ← digits.foldlM (fun n d => (16 * n + ·) <$> Json.Cursor.hexDigit? d) 0
  if n.isValidChar then some (Char.ofNat n) else none

def before (c : Char) (read : Option (List Char × List Char)) : Option (List Char × List Char) :=
  read.map fun (text, rest) => (c :: text, rest)

/-- The text up to a character that ends it, its escapes resolved, and the rest from that character
on. Only some texts may be ended by the end of the file. -/
def textUntil (ends : Char → Bool) (fileEnds : Bool) :
    List Char → Option (List Char × List Char)
  | [] => if fileEnds then some ([], []) else none
  | c :: cs =>
    if ends c then some ([], c :: cs)
    else if c = '\\' then
      match cs with
      | [] => none
      | '\n' :: rest => textUntil ends fileEnds rest
      | 'x' :: a :: b :: c :: d :: rest =>
        (codePoint? [a, b, c, d]).bind fun e => before e (textUntil ends fileEnds rest)
      | ['x'] => none
      | ['x', _] => none
      | ['x', _, _] => none
      | ['x', _, _, _] => none
      | c :: rest => before (shortEscape c) (textUntil ends fileEnds rest)
    else before c (textUntil ends fileEnds cs)

def trimmed (cs : List Char) : String := String.ofList (Text.trim cs)

/-- The value behind a key: between quotes that may span lines, or up to the end of the line. -/
def value? (cs : List Char) : Option (String × List Char) :=
  match cs.dropWhile fun c => Text.isBlank c && !isBreak c with
  | [] => some ("", [])
  | c :: cs =>
    if c = '"' ∨ c = '\'' then do
      let (text, rest) ← textUntil (· = c) false cs
      let (tail, rest) ← textUntil isBreak true rest.tail
      return (trimmed (text ++ tail), rest)
    else do
      let (text, rest) ← textUntil isBreak true (c :: cs)
      return (trimmed text, rest)

/-- The blanks before the next sign, and whether it starts its line. -/
def skipBlanks (starts : Bool) : List Char → Bool × List Char
  | [] => (starts, [])
  | c :: cs => if Text.isBlank c then skipBlanks (c = '\n') cs else (starts, c :: cs)

/-- The entries up to the next heading, and the sections from there on. -/
def sectionsFrom : Nat → Bool → List Char → Option (List (String × String) × List Section)
  | 0, _, _ => none
  | fuel + 1, starts, cs =>
    match skipBlanks starts cs with
    | (_, []) => some ([], [])
    | (starts, c :: cs) =>
      if c = ';' ∨ c = '#' then
        if starts then sectionsFrom fuel false (cs.dropWhile (· ≠ '\n')) else none
      else if c = '[' then do
        let (name, rest) ← textUntil (· = ']') false cs
        let (entries, sections) ← sectionsFrom fuel false rest.tail
        return ([], ⟨some (trimmed name), entries⟩ :: sections)
      else if c = '=' ∨ c = ':' then none
      else do
        let (key, rest) ← textUntil (fun c => c = '=' || c = ':') false (c :: cs)
        let (value, rest) ← value? rest.tail
        let (entries, sections) ← sectionsFrom fuel false rest
        return ((trimmed key, value) :: entries, sections)

/-- The sections of a file, in its order. -/
def read? (text : String) : Option (List Section) :=
  (sectionsFrom (text.length + 1) true text.toList).map fun (entries, sections) =>
    ⟨none, entries⟩ :: sections

end RpcContract.Settings.Ini
