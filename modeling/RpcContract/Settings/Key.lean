import RpcContract.Settings.Basic

/-!
Names that say where in a tree of settings a value goes: `section.name`, or `list[0]`. What is no
such name stands for itself.
-/

namespace RpcContract

inductive Settings.Step where
  | child (name : String)
  | index (i : Int)
deriving DecidableEq, Repr

structure Settings.Key where
  head : String
  steps : List Settings.Step
deriving DecidableEq, Repr

namespace Settings

namespace Key

def isNameChar (c : Char) : Bool := c.isAlphanum || c = ' ' || c = '_' || c = '-'

def isBlank (c : Char) : Bool := c = ' ' || c = '\t'

/-- The number between brackets and what follows them. -/
def index? (cs : List Char) : Option (Int × List Char) :=
  let cs := cs.dropWhile isBlank
  let (negative, cs) := match cs with
    | '-' :: cs => (true, cs)
    | cs => (false, cs)
  let digits := cs.takeWhile Char.isDigit
  let n := digits.foldl (fun n c => 10 * n + (c.toNat - '0'.toNat)) 0
  match (cs.dropWhile Char.isDigit).dropWhile isBlank with
  | ']' :: rest =>
    if digits = [] ∨ Nat.pow 2 63 ≤ n then none else some (if negative then -(n : Int) else n, rest)
  | _ => none

def stepsFrom : Nat → List Char → Option (List Step)
  | _, [] => some []
  | 0, _ => none
  | fuel + 1, '.' :: cs =>
    let name := cs.takeWhile isNameChar
    if name = [] then none
    else (stepsFrom fuel (cs.dropWhile isNameChar)).map (.child (String.ofList name) :: ·)
  | fuel + 1, '[' :: cs => do
    let (i, rest) ← index? cs
    return .index i :: (← stepsFrom fuel rest)
  | _, _ => none

def read (text : String) : Key :=
  let cs := text.toList
  let head := cs.takeWhile isNameChar
  match head, stepsFrom cs.length (cs.dropWhile isNameChar) with
  | _ :: _, some steps => ⟨String.ofList head, steps⟩
  | _, _ => ⟨text, []⟩

end Key

def nothing : Setting := .scalar none .nil

/-- Where in a list of a given length an index points; negative ones count from the end. -/
def indexIn (i : Int) (length : Nat) : Nat :=
  if 0 ≤ i then i.toNat else length - i.natAbs

/-- The items of a list, with empty ones added up to an index. -/
def itemsUpTo (i : Int) : Setting → Nat × List Setting
  | .list _ items =>
    let n := indexIn i items.length
    (n, items ++ List.replicate (n + 1 - items.length) nothing)
  | _ =>
    let n := indexIn i 0
    (n, List.replicate (n + 1) nothing)

def originOf : Setting → Option String
  | .scalar origin _ | .list origin _ | .table origin _ => origin

/-- The table with the origin and the entries of a setting, if that is a table. -/
def tableFrom (old : Setting) (change : Settings → Settings) : Setting :=
  match old with
  | .table origin entries => .table origin (change entries)
  | _ => .table none (change [])

def listFrom (old : Setting) (items : List Setting) : Setting :=
  match old with
  | .list origin _ => .list origin items
  | _ => .list none items

/-- Puts a value where the steps lead from a setting; what stands in the way makes room. -/
def assignIn (value : Setting) : List Step → Setting → Setting
  | [], _ => value
  | [.child name], old => tableFrom old fun entries => lay entries name value
  | .child name :: steps, old =>
    let key := Text.lowercase name
    tableFrom old fun entries =>
      Dict.insert entries key (assignIn value steps ((Dict.get? entries key).getD nothing))
  | .index i :: steps, old =>
    let (n, items) := itemsUpTo i old
    listFrom old (items.set n (assignIn value steps (items.getD n nothing)))

/-- Lays a value over the settings at the place that its name says. -/
def assign (under : Settings) (name : String) (value : Setting) : Settings :=
  match Key.read name with
  | ⟨head, []⟩ => lay under head value
  | ⟨head, steps⟩ =>
    let key := Text.lowercase head
    Dict.insert under key (assignIn value steps ((Dict.get? under key).getD nothing))

def assignAll (under : Settings) (entries : List (String × Setting)) : Settings :=
  entries.foldl (fun s e => assign s e.1 e.2) under

end Settings

end RpcContract
