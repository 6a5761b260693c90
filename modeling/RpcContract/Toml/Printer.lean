import RpcContract.Toml.Text

/-!
Writing a TOML document that consists of sections, whose values are texts, truth values and lists
of texts.
-/

namespace RpcContract.Toml

inductive Item where
  | text (s : String)
  | flag (b : Bool)
  | texts (list : List String)
deriving DecidableEq, Repr

structure Section where
  name : String
  entries : List (String × Item)
deriving DecidableEq, Repr

def quotedString (s : String) : List Char := quotedText s.toList

/-- Each text on a line of its own. -/
def textLines : List String → List Char
  | [] => []
  | s :: list => [' ', ' ', ' ', ' '] ++ quotedString s ++ [',', '\n'] ++ textLines list

def Item.written : Item → List Char
  | .text s => quotedString s
  | .flag b => if b then "true".toList else "false".toList
  | .texts [] => ['[', ']']
  | .texts [s] => '[' :: quotedString s ++ [']']
  | .texts list => ['[', '\n'] ++ textLines list ++ [']']

def entriesWritten : List (String × Item) → List Char
  | [] => []
  | (key, item) :: entries =>
    key.toList ++ [' ', '=', ' '] ++ item.written ++ ['\n'] ++ entriesWritten entries

def Section.written (s : Section) : List Char :=
  '[' :: s.name.toList ++ [']', '\n'] ++ entriesWritten s.entries

/-- Sections with an empty line between them. -/
def sectionsWritten : List Section → List Char
  | [] => []
  | [s] => s.written
  | s :: t :: rest => s.written ++ '\n' :: sectionsWritten (t :: rest)

def document (sections : List Section) : String := String.ofList (sectionsWritten sections)

end RpcContract.Toml
