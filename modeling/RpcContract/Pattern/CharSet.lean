import RpcContract.Text.Blank
import RpcContract.Text.Category
import RpcContract.Text.Folding

/-!
Sets of characters, as patterns describe them.
-/

namespace RpcContract

inductive CharSet where
  | none
  | range (first last : Nat)
  | digit
  | word
  | blank
  | inCategory (categories : List Text.Category)
  | alphabetic
  | union (a b : CharSet)
  | inter (a b : CharSet)
  | compl (a : CharSet)
deriving Repr

namespace CharSet

def single (c : Char) : CharSet := .range c.toNat c.toNat

def any : CharSet := .compl .none

def diff (a b : CharSet) : CharSet := .inter a (.compl b)

/-- What is in exactly one of two sets. -/
def differing (a b : CharSet) : CharSet := .union (a.diff b) (b.diff a)

def ofList (cs : List Char) : CharSet := cs.foldr (fun c s => .union (single c) s) .none

/-- Letters and marks, digits, connecting punctuation and the joiners. -/
def isWord (c : Char) : Bool :=
  let k := Text.category c
  Text.isAlphabetic c || k.isMark || k = .Nd || k = .Pc || c.toNat = 0x200C || c.toNat = 0x200D

def contains : CharSet → Char → Bool
  | .none, _ => false
  | .range first last, c => first ≤ c.toNat && c.toNat ≤ last
  | .digit, c => Text.category c = .Nd
  | .word, c => isWord c
  | .blank, c => Text.isBlank c
  | .inCategory categories, c => categories.contains (Text.category c)
  | .alphabetic, c => Text.isAlphabetic c
  | .union a b, c => a.contains c || b.contains c
  | .inter a b, c => a.contains c && b.contains c
  | .compl a, c => !(a.contains c)

/-- The set with all case variants of its characters, taken piece by piece. -/
def holds (s : CharSet) (ignoreCase : Bool) (c : Char) : Bool :=
  if ignoreCase then
    match s with
    | .compl a => !(a.contains c) && !((Text.caseVariants c).any a.contains)
    | s => (Text.caseVariants c).any s.contains
  else s.contains c

end CharSet

end RpcContract
