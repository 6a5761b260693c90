import RpcContract.Toml.Value

/-!
Building the tables of a document from its lines. A table is defined once: by a header, or piece by
piece through dotted keys; a table that was only passed on the way to another may be defined later.
-/

namespace RpcContract.Toml

inductive Line where
  | pair (key : List String) (value : Value)
  | header (key : List String)
  | arrayHeader (key : List String)

/-- How a table came about: through a header or braces of its own, on the way to another table, or
through a dotted key. -/
inductive Origin where
  | defined
  | passed
  | dotted
deriving DecidableEq, Repr

inductive Entry where
  | value (v : Value)
  | table (origin : Origin) (entries : List (String × Entry))
  | tables (elements : List (List (String × Entry)))
deriving Inhabited

abbrev Entries := List (String × Entry)

namespace Entries

def get? (es : Entries) (key : String) : Option Entry := es.lookup key

/-- Replaces an entry, or adds it as the last. -/
def set : Entries → String → Entry → Entries
  | [], key, e => [(key, e)]
  | (k, d) :: es, key, e => if k = key then (k, e) :: es else (k, d) :: set es key e

/-- Changes the table that a path leads to, by way of tables and the last elements of arrays of
tables. Tables that lack are made, with the origin `made`; a dotted key leads through no table that
is defined. -/
def update (made : Origin) (f : Origin → Entries → Option Entries) :
    List String → Origin → Entries → Option Entries
  | [], origin, es => f origin es
  | key :: path, _, es =>
    match get? es key with
    | none => do
      let inner ← update made f path made []
      some (set es key (.table made inner))
    | some (.value _) => none
    | some (.table origin inner) =>
      if made = .dotted ∧ origin = .defined then none
      else do
        let inner ← update made f path origin inner
        some (set es key (.table origin inner))
    | some (.tables elements) =>
      match elements.getLast? with
      | none => none
      | some last => do
        let last ← update made f path .defined last
        some (set es key (.tables (elements.dropLast ++ [last])))

/-- Adds a pair. Its last key belongs to a table made by dotted keys if it is dotted, and else to
the table at hand. -/
def addPair (es : Entries) (key : List String) (value : Value) : Option Entries :=
  match key.getLast? with
  | none => none
  | some last =>
    let path := key.dropLast
    update .dotted (fun origin es =>
      if path ≠ [] ∧ origin ≠ .dotted then none
      else if (get? es last).isSome then none
      else some (es ++ [(last, .value value)])) path .defined es

def addPairs : List (List String × Value) → Entries → Option Entries
  | [], es => some es
  | (key, value) :: pairs, es => do addPairs pairs (← addPair es key value)

/-- Defines the table of a header with the pairs below it. -/
def addTable (es : Entries) (key : List String) (pairs : List (List String × Value)) :
    Option Entries :=
  match key.getLast? with
  | none => none
  | some last =>
    update .passed (fun _ es =>
      match get? es last with
      | none => do some (es ++ [(last, .table .defined (← addPairs pairs []))])
      | some (.table .passed inner) => do
        some (set es last (.table .defined (← addPairs pairs inner)))
      | some _ => none) key.dropLast .defined es

/-- Adds the table of a header in double brackets to its array. -/
def addElement (es : Entries) (key : List String) (pairs : List (List String × Value)) :
    Option Entries :=
  match key.getLast? with
  | none => none
  | some last =>
    update .passed (fun _ es => do
      let element ← addPairs pairs []
      match get? es last with
      | none => some (es ++ [(last, .tables [element])])
      | some (.tables elements) => some (set es last (.tables (elements ++ [element])))
      | some _ => none) key.dropLast .defined es

mutual

def closeEntry : Entry → Value
  | .value v => v
  | .table _ es => .table (close es)
  | .tables elements => .array (closeAll elements)

def close : Entries → List (String × Value)
  | [] => []
  | (key, e) :: es => (key, closeEntry e) :: close es

def closeAll : List Entries → List Value
  | [] => []
  | es :: rest => .table (close es) :: closeAll rest

end

/-- The pairs up to the next header, and the lines from there on. -/
def splitPairs : List Line → List (List String × Value) × List Line
  | .pair key value :: lines =>
    let (pairs, rest) := splitPairs lines
    ((key, value) :: pairs, rest)
  | lines => ([], lines)

theorem length_splitPairs_le (lines : List Line) : (splitPairs lines).2.length ≤ lines.length := by
  induction lines with
  | nil => simp [splitPairs]
  | cons line lines ih => cases line <;> simp [splitPairs]; omega

/-- Adds the tables of the headers, each with the pairs below it. -/
def addSections (es : Entries) : List Line → Option Entries
  | [] => some es
  | .pair .. :: _ => none
  | .header key :: lines => do
    addSections (← addTable es key (splitPairs lines).1) (splitPairs lines).2
  | .arrayHeader key :: lines => do
    addSections (← addElement es key (splitPairs lines).1) (splitPairs lines).2
termination_by lines => lines.length
decreasing_by
  all_goals
    have := length_splitPairs_le lines
    simp only [List.length_cons]
    omega

def ofLines? (lines : List Line) : Option (List (String × Value)) := do
  let es ← addPairs (splitPairs lines).1 []
  return close (← addSections es (splitPairs lines).2)

end Entries

end RpcContract.Toml
