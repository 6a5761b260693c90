/-!
The values of a TOML document. Tables keep the order in which their keys are written; a date or
time is kept as its text.
-/

namespace RpcContract.Toml

inductive Value where
  | text (s : String)
  | int (n : Int)
  | float (bits : UInt64)
  | bool (b : Bool)
  | moment (s : String)
  | array (items : List Value)
  | table (entries : List (String × Value))
deriving Repr, Inhabited

def isBlank (c : Char) : Bool := c = ' ' || c = '\t'

/-- Control characters, which are written as escapes only; the tab is none of them. -/
def isControl (c : Char) : Bool := (c.toNat < 0x20 && c != '\t') || c.toNat = 0x7F

def skipBlanks (cs : List Char) : List Char := cs.dropWhile isBlank

def comment : List Char → List Char
  | '#' :: cs => cs.dropWhile (!isControl ·)
  | cs => cs

/-- What follows a line break. -/
def lineBreak? : List Char → Option (List Char)
  | '\n' :: cs => some cs
  | '\r' :: '\n' :: cs => some cs
  | _ => none

/-- What follows the end of a line, which may hold blanks and a comment. -/
def lineEnd? (cs : List Char) : Option (List Char) :=
  match comment (skipBlanks cs) with
  | [] => some []
  | cs => lineBreak? cs

end RpcContract.Toml
