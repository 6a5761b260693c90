import RpcContract.Pattern.Reader

/-!
The patterns of schemas. Their short escapes for digits, word characters and blanks stand for
fixed sets, and `\cX` stands for a control character; all else is a pattern of the wide dialect.
-/

namespace RpcContract.Pattern

def blankSet : List Char :=
  [' ', '\t', '\n', '\r', '\x0b', '\x0c', '\u2003', '\ufeff', '\u2029', '\u00a0']

/-- The set that a short escape stands for. -/
def shortEscape? (c : Char) : Option (List Char) :=
  match c with
  | 'd' => some "[0-9]".toList
  | 'D' => some "[^0-9]".toList
  | 'w' => some "[A-Za-z0-9_]".toList
  | 'W' => some "[^A-Za-z0-9_]".toList
  | 's' => some ('[' :: blankSet ++ [']'])
  | 'S' => some ('[' :: '^' :: blankSet ++ [']'])
  | _ => none

def spellControls : List Char → List Char
  | '\\' :: 'c' :: x :: cs =>
    if x.isAlpha then Char.ofNat (x.toNat - 64) :: spellControls cs
    else '\\' :: 'c' :: spellControls (x :: cs)
  | c :: cs => c :: spellControls cs
  | [] => []

def spellSets : List Char → List Char
  | '\\' :: c :: cs =>
    match shortEscape? c with
    | some set => set ++ spellSets cs
    | none => '\\' :: c :: spellSets cs
  | c :: cs => c :: spellSets cs
  | [] => []

def ofSchema? (text : String) : Option Pattern :=
  read? .wide (String.ofList (spellSets (spellControls text.toList)))

end RpcContract.Pattern
